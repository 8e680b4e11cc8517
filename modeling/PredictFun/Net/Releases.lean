import PredictFun.Net.RateLimiter

namespace PredictFun.Net

open Base

structure Bucket.Later (before after : Bucket) : Prop where
  updated : before.updated ≤ after.updated
  blockedUntil : before.blockedUntil ≤ after.blockedUntil

theorem Bucket.Later.refl (bucket : Bucket) : bucket.Later bucket := ⟨le_rfl, le_rfl⟩

theorem Bucket.Later.trans {first second third : Bucket} (h : first.Later second) (h' : second.Later third) :
    first.Later third :=
  ⟨h.updated.trans h'.updated, h.blockedUntil.trans h'.blockedUntil⟩

variable {limit : ℕ} {bucket : Bucket}

theorem Bucket.spent_later {now time : ℚ} (h : bucket.Sound limit)
    (ht : bucket.ready now ≤ time) : bucket.Later (bucket.spent time) :=
  ⟨(updated_le_eligible.trans (eligible_le_ready h)).trans ht, le_rfl⟩

theorem Bucket.Later.le_ready {before after : Bucket} (h : before.Later after) (hs : after.Sound limit)
    (now : ℚ) : before.updated ≤ after.ready now ∧ before.blockedUntil ≤ after.ready now :=
  ⟨h.updated.trans (updated_le_eligible.trans (eligible_le_ready hs)),
    h.blockedUntil.trans (blockedUntil_le_eligible.trans (eligible_le_ready hs))⟩

theorem makeBucket_metered {now : ℚ} (h : makeBucket limit now = some bucket) :
    TokenBucket.Metered (limit : ℚ) (limit / 60) [] bucket.tokens bucket.updated := by
  unfold makeBucket at h
  split_ifs at h
  cases h
  exact .start (by positivity) (by positivity)

theorem Bucket.Sound.paid_spent {now time : ℚ} {times : List ℚ}
    (h : bucket.Sound limit) (hr : bucket.ready now ≤ time)
    (hm : TokenBucket.Metered (limit : ℚ) (limit / 60) times bucket.tokens bucket.updated) :
    TokenBucket.Metered (limit : ℚ) (limit / 60) (times ++ [time]) (bucket.spent time).tokens time := by
  have htime : bucket.updated ≤ time := (updated_le_eligible.trans (eligible_le_ready h)).trans hr
  have htoken := one_le_tokensAt h hr
  simp only [Bucket.spent, Bucket.tokensAt, h.capacity_eq, h.rate_eq] at htoken ⊢
  exact (hm.refill htime).spend htoken

namespace RateLimiter

structure Later (before after : RateLimiter) : Prop where
  global : before.global.Later after.global
  endpoints : ∀ endpoint bucket, before.endpoints.lookup endpoint = some bucket →
    ∃ next, after.endpoints.lookup endpoint = some next ∧ bucket.Later next
  blocked : ∀ endpoint time, before.endpointBlockedUntil.lookup endpoint = some time →
    ∃ next, after.endpointBlockedUntil.lookup endpoint = some next ∧ time ≤ next

variable {policy : RateLimitPolicy} {limiter : RateLimiter} {endpoint : Bytes} {now : ℚ}

theorem Later.refl (limiter : RateLimiter) : limiter.Later limiter :=
  ⟨.refl _, fun _ bucket hb => ⟨bucket, hb, .refl _⟩, fun _ time ht => ⟨time, ht, le_rfl⟩⟩

theorem Later.trans {first second third : RateLimiter} (h : first.Later second) (h' : second.Later third) :
    first.Later third := by
  refine ⟨h.global.trans h'.global, ?_, ?_⟩
  · intro endpoint bucket hb
    obtain ⟨next, hn, hl⟩ := h.endpoints endpoint bucket hb
    obtain ⟨last, ht, hl'⟩ := h'.endpoints endpoint next hn
    exact ⟨last, ht, hl.trans hl'⟩
  · intro endpoint time ht
    obtain ⟨next, hn, hl⟩ := h.blocked endpoint time ht
    obtain ⟨last, ht, hl'⟩ := h'.blocked endpoint next hn
    exact ⟨last, ht, hl.trans hl'⟩

theorem step_later (h : limiter.Sound policy) (call : Call) : limiter.Later (limiter.step call) := by
  cases call with
  | reserve endpoint now =>
    rw [step_reserve h]
    refine ⟨Bucket.spent_later h.global le_rfl, ?_, fun _ time ht => ⟨time, ht, le_rfl⟩⟩
    intro other bucket hb
    obtain ⟨limit, -, hsound⟩ := h.endpoints other bucket hb
    simp only [reserved, KeyedMap.lookup_adjust, hb, Option.map_some, Option.some.injEq, exists_eq_left']
    split_ifs with he
    · subst he
      exact Bucket.spent_later hsound (ready_le_endpointReady hb)
    · exact .refl _
  | penalize endpoint now retryAfter global =>
    refine ⟨?_, ?_, ?_⟩
    · cases global
      · exact .refl _
      · exact ⟨le_rfl, le_max_left _ _⟩
    · intro other bucket hb
      simp only [step, penalize, KeyedMap.lookup_adjust, hb, Option.map_some, Option.some.injEq, exists_eq_left']
      split_ifs
      · exact ⟨le_rfl, le_max_left _ _⟩
      · exact .refl _
    · intro other time ht
      simp only [step, penalize, KeyedMap.lookup_insert_eq]
      split_ifs with he
      · subst he
        simp [ht]
      · exact ⟨time, ht, le_rfl⟩

variable {times : List ℚ} {calls : List Call}

theorem exists_of_mem_releases (h : limiter.Sound policy) {made : Bytes × ℚ}
    (hm : made ∈ limiter.releases calls) :
    ∃ state endpoint now, state.Sound policy ∧ limiter.Later state ∧ Call.reserve endpoint now ∈ calls ∧
      made = (endpoint, state.release endpoint now) := by
  induction calls generalizing limiter with
  | nil => simp [releases] at hm
  | cons call calls ih =>
    have later (hin : made ∈ (limiter.step call).releases calls) :
        ∃ state endpoint now, state.Sound policy ∧ limiter.Later state ∧ Call.reserve endpoint now ∈ call :: calls ∧
          made = (endpoint, state.release endpoint now) := by
      obtain ⟨state, endpoint, now, hs, hl, hc, hr⟩ := ih (step_sound h call) hin
      exact ⟨state, endpoint, now, hs, (step_later h call).trans hl, List.mem_cons_of_mem _ hc, hr⟩
    cases call with
    | reserve endpoint now =>
      rcases List.mem_cons.mp hm with hhead | htail
      · exact ⟨limiter, endpoint, now, h, .refl _, List.mem_cons_self, hhead⟩
      · exact later htail
    | penalize endpoint now retryAfter global => exact later hm

theorem release_mono {state : RateLimiter} {now' : ℚ} (h : limiter.Sound policy) (hs : state.Sound policy)
    (hl : (limiter.reserved endpoint now).Later state) (hn : now ≤ now') :
    limiter.release endpoint now ≤ state.release endpoint now' := by
  rw [release_eq h, release_eq hs]
  refine max_le_max (hl.global.le_ready hs.global now').1 (max_le ?_ ?_)
  · refine le_trans ?_ cooled_le_endpointReady
    cases hb : limiter.endpointBlockedUntil.lookup endpoint with
    | none =>
      simp only [cooled, hb, Option.map_none, Option.getD_none]
      exact hn.trans now_le_cooled
    | some time =>
      obtain ⟨next, hnext, hle⟩ := hl.blocked endpoint time hb
      simp only [cooled, hb, hnext, Option.map_some, Option.getD_some]
      exact max_le_max hn hle
  · cases hb : limiter.endpoints.lookup endpoint with
    | none => exact hn.trans (now_le_cooled.trans cooled_le_endpointReady)
    | some bucket =>
      -- the bucket's clock stands at the time at which the earlier reservation took its token
      have hspent : (limiter.reserved endpoint now).endpoints.lookup endpoint
          = some (bucket.spent (limiter.endpointReady endpoint now)) := by
        simp [reserved, KeyedMap.lookup_adjust, hb]
      obtain ⟨next, hnext, hle⟩ := hl.endpoints endpoint _ hspent
      obtain ⟨limit, -, hsound⟩ := hs.endpoints endpoint next hnext
      exact ((ready_le_endpointReady hb).trans (hle.le_ready hsound now').1).trans (ready_le_endpointReady hnext)

theorem penaltyEnd_le_release {state : RateLimiter} {retryAfter : ℤ} {global : Bool} {other : Bytes} {now' : ℚ}
    (hs : state.Sound policy) (hl : (limiter.penalize endpoint now retryAfter global).Later state)
    (ho : other = endpoint ∨ global = true) :
    penaltyEnd now retryAfter ≤ state.release other now' := by
  rw [release_eq hs]
  rcases ho with rfl | rfl
  · obtain ⟨next, hnext, hle⟩ := hl.blocked other
      (max ((limiter.endpointBlockedUntil.lookup other).getD 0) (penaltyEnd now retryAfter))
      (by simp [penalize])
    have hend : penaltyEnd now retryAfter ≤ state.cooled other now' := by
      simp only [cooled, hnext, Option.map_some, Option.getD_some]
      exact ((le_max_right _ _).trans hle).trans (le_max_right _ _)
    exact (hend.trans cooled_le_endpointReady).trans (le_max_right _ _)
  · have hend : penaltyEnd now retryAfter ≤ (limiter.penalize endpoint now retryAfter true).global.blockedUntil :=
      le_max_right _ _
    exact (hend.trans (hl.global.le_ready hs.global now').2).trans (le_max_left _ _)

theorem add_seconds_le_penaltyEnd (now : ℚ) (retryAfter : ℤ) : now + seconds retryAfter ≤ penaltyEnd now retryAfter := by
  have : (retryAfter : ℚ) ≤ ((if retryAfter < 0 then 0 else retryAfter : ℤ) : ℚ) := by
    exact_mod_cast (by split_ifs <;> omega)
  unfold penaltyEnd seconds
  gcongr

def Holds (limiter : RateLimiter) (bucket : Bucket) : Prop :=
  bucket = limiter.global ∨ ∃ endpoint, limiter.endpoints.lookup endpoint = some bucket

theorem Sound.tokens_bounded (h : limiter.Sound policy) {bucket : Bucket} (hb : limiter.Holds bucket) :
    0 ≤ bucket.tokens ∧ bucket.tokens ≤ bucket.capacity := by
  rcases hb with rfl | ⟨endpoint, hb⟩
  · exact ⟨h.global.tokens_nonneg, h.global.tokens_le⟩
  · obtain ⟨limit, -, hsound⟩ := h.endpoints endpoint bucket hb
    exact ⟨hsound.tokens_nonneg, hsound.tokens_le⟩

theorem releases_ordered (h : limiter.Sound policy)
    (ht : (calls.map Call.now).Pairwise (· ≤ ·)) :
    (limiter.releases calls).Pairwise (fun first second => first.1 = second.1 → first.2 ≤ second.2) := by
  induction calls generalizing limiter with
  | nil => exact List.Pairwise.nil
  | cons call calls ih =>
    obtain ⟨hfirst, hrest⟩ := List.pairwise_cons.mp ht
    have htail := ih (step_sound h call) hrest
    cases call with
    | reserve endpoint now =>
      refine List.pairwise_cons.mpr ⟨?_, htail⟩
      intro made hm he
      obtain ⟨state, other, now', hs, hl, hc, rfl⟩ := exists_of_mem_releases (step_sound h _) hm
      rw [step_reserve h] at hl
      obtain rfl : endpoint = other := he
      exact release_mono h hs hl (hfirst now' (List.mem_map.mpr ⟨_, hc, rfl⟩))
    | penalize endpoint now retryAfter global => exact htail

theorem cooldowns_bind_in_order {clock : Option Bytes → ℚ} (h : ofPolicy policy clock = some limiter)
    (calls : List Call) (ht : (calls.map Call.now).Pairwise (· ≤ ·)) :
    (∀ before, before <+: calls → ∀ bucket, (Runs.run step limiter before).Holds bucket →
        0 ≤ bucket.tokens ∧ bucket.tokens ≤ bucket.capacity) ∧
      (∀ before endpoint now retryAfter global after,
        calls = before ++ Call.penalize endpoint now retryAfter global :: after →
        ∀ made ∈ (Runs.run step limiter (before ++ [.penalize endpoint now retryAfter global])).releases after,
          made.1 = endpoint ∨ global = true → now + seconds retryAfter ≤ made.2) ∧
      (limiter.releases calls).Pairwise (fun first second => first.1 = second.1 → first.2 ≤ second.2) := by
  have hsound := ofPolicy_sound h
  refine ⟨?_, ?_, releases_ordered hsound ht⟩
  · intro before _ bucket hb
    exact (run_sound hsound before).tokens_bounded hb
  · intro before endpoint now retryAfter global after _ made hm ho
    rw [Runs.run_append, Runs.run_cons, Runs.run_nil] at hm
    obtain ⟨state, other, now', hs, hl, -, rfl⟩ :=
      exists_of_mem_releases (step_sound (run_sound hsound before) _) hm
    exact (add_seconds_le_penaltyEnd now retryAfter).trans (penaltyEnd_le_release hs hl ho)

theorem penalized_endpoint_waits :
    (started {}).releases
        [.reserve [1] 0, .penalize [1] 0 5000 false, .reserve [1] 1, .reserve [2] 1, .reserve [1] 7]
      = [([1], 0), ([1], 5), ([2], 1), ([1], 7)] ∧
    ∀ made ∈ (Runs.run step (started {}) [.reserve [1] 0, .penalize [1] 0 5000 false]).releases
        [.reserve [1] 1, .reserve [2] 1, .reserve [1] 7], made.1 = [1] → 0 + seconds 5000 ≤ made.2 := by
  obtain ⟨-, hcooled, -⟩ := cooldowns_bind_in_order (ofPolicy_started {} (by decide))
    [.reserve [1] 0, .penalize [1] 0 5000 false, .reserve [1] 1, .reserve [2] 1, .reserve [1] 7] (by decide)
  refine ⟨by decide +kernel, ?_⟩
  intro made hm he
  exact hcooled [.reserve [1] 0] [1] 0 5000 false _ rfl made hm (Or.inl he)

theorem releases_collected {Q : RateLimiter → Call → Prop} (selected : Bytes → Bool)
    {Paid : RateLimiter → List ℚ → Prop}
    (hstep : ∀ state call times, Paid state times → Q state call →
      Paid (state.step call) (times ++ ((state.releases [call]).filter (selected ·.1)).map Prod.snd))
    (hp : Paid limiter times) (hq : Runs.Along step Q limiter calls) :
    Paid (Runs.run step limiter calls)
      (times ++ ((limiter.releases calls).filter (selected ·.1)).map Prod.snd) := by
  induction calls generalizing limiter times with
  | nil => simpa [releases] using hp
  | cons call calls ih =>
    have hsplit : limiter.releases (call :: calls) = limiter.releases [call] ++ (limiter.step call).releases calls := by
      cases call <;> rfl
    rw [hsplit, List.filter_append, List.map_append, ← List.append_assoc]
    exact ih (hstep limiter call times hp hq.1) hq.2

/-- The endpoint holds a reservation back no longer than the global budget does. -/
def EndpointFirst (limiter : RateLimiter) : Call → Prop
  | .reserve endpoint now => limiter.endpointReady endpoint now ≤ limiter.global.ready now
  | .penalize .. => True

/-- The global budget holds a reservation of the endpoint back no longer than the endpoint does. -/
def GlobalFirst (name : Bytes) (limiter : RateLimiter) : Call → Prop
  | .reserve endpoint now =>
    endpoint = name → limiter.global.ready now ≤ limiter.endpointReady endpoint now
  | .penalize .. => True

def GlobalPaid (policy : RateLimitPolicy) (limiter : RateLimiter) (times : List ℚ) : Prop :=
  limiter.Sound policy ∧
    TokenBucket.Metered (policy.globalRequestsPerMinute : ℚ) (policy.globalRequestsPerMinute / 60) times
      limiter.global.tokens limiter.global.updated

def EndpointPaid (policy : RateLimitPolicy) (name : Bytes) (limit : ℕ) (limiter : RateLimiter)
    (times : List ℚ) : Prop :=
  limiter.Sound policy ∧ ∃ bucket, limiter.endpoints.lookup name = some bucket ∧ bucket.Sound limit ∧
    TokenBucket.Metered (limit : ℚ) (limit / 60) times bucket.tokens bucket.updated

theorem step_globalPaid {call : Call} (h : GlobalPaid policy limiter times)
    (hf : limiter.EndpointFirst call) :
    GlobalPaid policy (limiter.step call) (times ++ ((limiter.releases [call]).filter (fun _ => true)).map Prod.snd) := by
  refine ⟨step_sound h.1 call, ?_⟩
  cases call with
  | reserve endpoint now =>
    have hrelease : limiter.release endpoint now = limiter.global.ready now := by
      rw [release_eq h.1]
      exact max_eq_left hf
    simp only [releases, step_reserve h.1, reserved, List.filter_cons_of_pos, List.filter_nil, List.map_cons,
      List.map_nil, hrelease]
    exact h.1.global.paid_spent le_rfl h.2
  | penalize endpoint now retryAfter global => cases global <;> simpa [releases, step, penalize] using h.2

theorem step_endpointPaid {name : Bytes} {limit : ℕ} {call : Call}
    (h : EndpointPaid policy name limit limiter times) (hf : limiter.GlobalFirst name call) :
    EndpointPaid policy name limit (limiter.step call)
      (times ++ ((limiter.releases [call]).filter (fun made => decide (made.1 = name))).map Prod.snd) := by
  refine ⟨step_sound h.1 call, ?_⟩
  obtain ⟨hlimiter, bucket, hb, hsound, hmetered⟩ := h
  cases call with
  | reserve endpoint now =>
    simp only [releases, step_reserve hlimiter, reserved, KeyedMap.lookup_adjust, hb, Option.map_some,
      Option.some.injEq, exists_eq_left']
    by_cases he : endpoint = name
    · subst he
      have hready : bucket.ready now ≤ limiter.endpointReady endpoint now := ready_le_endpointReady hb
      have hrelease : limiter.release endpoint now = limiter.endpointReady endpoint now := by
        rw [release_eq hlimiter]
        exact max_eq_right (hf rfl)
      simp only [if_true, hrelease, decide_true, List.filter_cons_of_pos, List.filter_nil, List.map_cons, List.map_nil]
      exact ⟨hsound.spent hready, hsound.paid_spent hready hmetered⟩
    · simp only [he, Ne.symm he, decide_false, if_false, Bool.false_eq_true, not_false_eq_true,
        List.filter_cons_of_neg, List.filter_nil, List.map_nil, List.append_nil]
      exact ⟨hsound, hmetered⟩
  | penalize endpoint now retryAfter global =>
    simp only [releases, step, penalize, KeyedMap.lookup_adjust, hb, Option.map_some, Option.some.injEq,
      exists_eq_left', List.filter_nil, List.map_nil, List.append_nil]
    split_ifs
    · exact ⟨hsound.blocked _, hmetered⟩
    · exact ⟨hsound, hmetered⟩

theorem budgets_respected {clock : Option Bytes → ℚ} (h : ofPolicy policy clock = some limiter)
    (calls : List Call) :
    (Runs.Along step EndpointFirst limiter calls →
        TokenBucket.Budgeted (policy.globalRequestsPerMinute : ℚ) (policy.globalRequestsPerMinute / 60)
          ((limiter.releases calls).map Prod.snd)) ∧
      ∀ endpoint limit, policy.endpointRequestsPerMinute.lookup endpoint = some limit →
        Runs.Along step (GlobalFirst endpoint) limiter calls →
        TokenBucket.Budgeted (limit : ℚ) (limit / 60)
          (((limiter.releases calls).filter (fun made => decide (made.1 = endpoint))).map Prod.snd) := by
  obtain ⟨hglobal, hfrom, hkept⟩ := ofPolicy_buckets h
  have hsound := ofPolicy_sound h
  constructor
  · intro hfirst
    have hpaid : GlobalPaid policy limiter [] := ⟨hsound, makeBucket_metered hglobal⟩
    have hrun := releases_collected (fun _ => true) (fun _ _ _ => step_globalPaid) hpaid hfirst
    simpa using hrun.2.budgeted
  · intro endpoint limit hlimit hfirst
    obtain ⟨bucket, hb⟩ := hkept endpoint limit hlimit
    obtain ⟨limit', hlimit', hmade⟩ := hfrom endpoint bucket hb
    obtain rfl : limit' = limit := Option.some.inj (hlimit'.symm.trans hlimit)
    have hpaid : EndpointPaid policy endpoint limit' limiter [] :=
      ⟨hsound, bucket, hb, Bucket.makeBucket_sound hmade, makeBucket_metered hmade⟩
    have hrun := releases_collected (fun name => decide (name = endpoint))
      (fun _ _ _ => step_endpointPaid) hpaid hfirst
    obtain ⟨-, last, -, -, hmetered⟩ := hrun
    simpa using hmetered.budgeted

def twoPerMinute : RateLimitPolicy := { globalRequestsPerMinute := 2 }

def endpointTwoPerMinute : RateLimitPolicy :=
  { endpointRequestsPerMinute := (∅ : KeyedMap Bytes ℕ).insert [1] 2 }

/-- A cool-down of a minute, during which three reservations of the endpoint `[1]` are made. -/
def cooledCalls (endpoint : Bytes) (global : Bool) : List Call :=
  [.penalize endpoint 0 60000 global, .reserve [1] 0, .reserve [1] 0, .reserve [1] 30]

theorem not_budgeted_of_within {capacity rate : ℚ} (time : ℚ)
    (h : capacity < TokenBucket.within times time time) : ¬ TokenBucket.Budgeted capacity rate times := by
  intro hb
  have := hb time time le_rfl
  rw [sub_self, zero_mul, add_zero] at this
  exact absurd h (not_lt.mpr this)

theorem cooldown_gathers_releases :
    (∃ limiter, ofPolicy twoPerMinute (fun _ => 0) = some limiter ∧
      ((cooledCalls [1] false).map Call.now).Pairwise (· ≤ ·) ∧
      ¬ TokenBucket.Budgeted (2 : ℚ) (2 / 60) ((limiter.releases (cooledCalls [1] false)).map Prod.snd)) ∧
    ∃ limiter, ofPolicy endpointTwoPerMinute (fun _ => 0) = some limiter ∧
      ((cooledCalls [2] true).map Call.now).Pairwise (· ≤ ·) ∧
      ¬ TokenBucket.Budgeted (2 : ℚ) (2 / 60)
        (((limiter.releases (cooledCalls [2] true)).filter (fun made => decide (made.1 = [1]))).map Prod.snd) := by
  refine ⟨⟨_, ofPolicy_started _ (by decide), by decide, ?_⟩,
    ⟨_, ofPolicy_started _ (by decide), by decide, ?_⟩⟩
  -- all three reservations are released at the end of the cool-down
  · exact not_budgeted_of_within 60 (by decide +kernel)
  · exact not_budgeted_of_within 60 (by decide +kernel)

theorem third_request_waits :
    (started endpointTwoPerMinute).releases [.reserve [1] 0, .reserve [1] 0, .reserve [1] 0]
      = [([1], 0), ([1], 0), ([1], 30)] ∧
    TokenBucket.Budgeted (2 : ℚ) (2 / 60)
      ((((started endpointTwoPerMinute).releases [.reserve [1] 0, .reserve [1] 0, .reserve [1] 0]).filter
        (fun made => decide (made.1 = [1]))).map Prod.snd) ∧
    TokenBucket.Budgeted (2 : ℚ) (2 / 60)
      (((started twoPerMinute).releases [.reserve [1] 0, .reserve [1] 0, .reserve [2] 0]).map Prod.snd) := by
  obtain ⟨hglobal, -⟩ := budgets_respected (ofPolicy_started twoPerMinute (by decide +kernel))
    [.reserve [1] 0, .reserve [1] 0, .reserve [2] 0]
  obtain ⟨-, hendpoint⟩ := budgets_respected (ofPolicy_started endpointTwoPerMinute (by decide))
    [.reserve [1] 0, .reserve [1] 0, .reserve [1] 0]
  refine ⟨by decide +kernel, hendpoint [1] 2 (by decide) ?_, hglobal ?_⟩
  · refine ⟨?_, ?_, ?_, trivial⟩ <;> (intro _; decide +kernel)
  · refine ⟨?_, ?_, ?_, trivial⟩ <;> (change _ ≤ _; decide +kernel)

end RateLimiter

end PredictFun.Net
