import PredictFun.Net.Backoff

namespace PredictFun.Net.ReconnectBackoff

open Base

def record (s : ReconnectBackoff) (call : ℤ × Call) : ℤ × Option ReconnectDecision :=
  match call.2 with
  | .next => (call.1, some (s.next call.1).1)
  | .markStable => (call.1, none)

def events : ReconnectBackoff → List (ℤ × Call) → List (ℤ × Option ReconnectDecision)
  | _, [] => []
  | s, call :: calls => record s call :: events (step s call) calls

def Quiet (event : ℤ × Option ReconnectDecision) : Prop := ∃ delay, event.2 = some ⟨delay, false⟩

def Ordered (calls : List (ℤ × Call)) : Prop := (calls.map Prod.fst).Pairwise (· ≤ ·)

instance (calls : List (ℤ × Call)) : Decidable (Ordered calls) := inferInstanceAs (Decidable (List.Pairwise _ _))

def Representable (time : ℤ) : Prop := -2 ^ 63 ≤ time ∧ time < 2 ^ 63

instance (time : ℤ) : Decidable (Representable time) := inferInstanceAs (Decidable (_ ∧ _))

def within (start length : ℤ) (event : ℤ × Option ReconnectDecision) : Bool :=
  decide (start ≤ event.1 ∧ event.1 ≤ start + length)

/-- An interval of the length of the storm window in which each event is a retry has no more than the allowed number. -/
def Bounded (policy : ReconnectPolicy) (events : List (ℤ × Option ReconnectDecision)) : Prop :=
  ∀ start, (∀ event ∈ events, within start (policy.stormWindow * 1000000) event = true → Quiet event) →
    (events.filter (within start (policy.stormWindow * 1000000))).length ≤ policy.stormAttempts

section

variable {s : ReconnectBackoff}

@[simp] theorem record_time (s : ReconnectBackoff) (call : ℤ × Call) : (record s call).1 = call.1 := by
  unfold record
  split <;> rfl

theorem events_append (s : ReconnectBackoff) (first second : List (ℤ × Call)) :
    events s (first ++ second) = events s first ++ events (Runs.run step s first) second := by
  induction first generalizing s with
  | nil => rfl
  | cons call first ih => exact congrArg (record s call :: ·) (ih _)

theorem events_times (s : ReconnectBackoff) (calls : List (ℤ × Call)) : (events s calls).map Prod.fst = calls.map Prod.fst := by
  induction calls generalizing s with
  | nil => rfl
  | cons call calls ih => rw [events, List.map_cons, List.map_cons, ih, record_time]

theorem attempts_of_quiet {now : ℤ} {call : Call} (h : Quiet (record s (now, call))) :
    (step s (now, call)).attempts = s.recent now ∧ (s.recent now).length ≤ s.policy.stormAttempts := by
  obtain ⟨delay, hd⟩ := h
  cases call with
  | markStable => cases hd
  | next =>
    have hdecides := next_decides s now
    change some (s.next now).1 = _ at hd
    change (s.next now).2.attempts = _ ∧ _
    cases hnext : s.next now with
    | mk decision after =>
      rw [hnext] at hd hdecides
      cases hdecides with
      | waits hw => cases hd
      | storms hw hfull => cases hd
      | retries hw hroom => exact ⟨rfl, hroom⟩

theorem step_policy (s : ReconnectBackoff) (call : ℤ × Call) : (step s call).policy = s.policy := by
  obtain ⟨now, call⟩ := call
  cases call with
  | markStable => rfl
  | next =>
    have hdecides := next_decides s now
    change (s.next now).2.policy = _
    cases hnext : s.next now with
    | mk decision after =>
      rw [hnext] at hdecides
      cases hdecides <;> rfl

theorem run_policy (s : ReconnectBackoff) (calls : List (ℤ × Call)) : (Runs.run step s calls).policy = s.policy := by
  induction calls generalizing s with
  | nil => rfl
  | cons call calls ih => rw [Runs.run_cons, ih, step_policy]

end

section

theorem suffix_dropWhile {α : Type} {stale : α → Bool} {kept queue : List α} (h : kept <:+ queue)
    (hfresh : ∀ x ∈ kept, stale x = false) : kept <:+ queue.dropWhile stale := by
  obtain ⟨older, rfl⟩ := h
  induction older with
  | nil =>
    have he : kept.dropWhile stale = kept := by
      cases kept with
      | nil => rfl
      | cons x kept => rw [List.dropWhile_cons_of_neg (by simp [hfresh x List.mem_cons_self])]
    rw [List.nil_append, he]
  | cons x older ih =>
    rw [List.cons_append]
    by_cases hx : stale x = true
    · rw [List.dropWhile_cons_of_pos hx]
      exact ih
    · rw [List.dropWhile_cons_of_neg hx]
      exact ⟨x :: older, rfl⟩

theorem int64_eq {n : ℤ} (hl : -2 ^ 63 ≤ n) (hu : n < 2 ^ 63) : int64 n = n := by
  apply Int.bmod_eq_of_le
  · norm_num at hl ⊢
    exact hl
  · norm_num at hu ⊢
    exact hu

theorem int64_spec (n : ℤ) : -2 ^ 63 ≤ int64 n ∧ int64 n < 2 ^ 63 ∧ ∃ quotient, int64 n + 2 ^ 64 * quotient = n := by
  refine ⟨?_, ?_, n.bdiv (2 ^ 64), ?_⟩
  · exact Int.le_bmod (by norm_num)
  · exact Int.bmod_lt (by norm_num)
  · exact Int.bmod_add_bdiv n (2 ^ 64)

variable {s : ReconnectBackoff} {calls : List (ℤ × Call)}

theorem event_time_le {now : ℤ} (h : ∀ call ∈ calls, call.1 ≤ now) : ∀ event ∈ events s calls, event.1 ≤ now := by
  intro event he
  have ht : event.1 ∈ calls.map Prod.fst := by
    rw [← events_times s calls]
    exact List.mem_map_of_mem he
  obtain ⟨call, hc, hct⟩ := List.mem_map.mp ht
  rw [← hct]
  exact h call hc

theorem fresh {window now time : ℤ} (hw : 0 < window) (hfits : window * 1000000 < 2 ^ 63) (hpast : time ≤ now)
    (hnear : now ≤ time + window * 1000000) : decide (nanoseconds window < int64 (now - time)) = false := by
  rw [decide_eq_false_iff_not, nanoseconds, int64_eq (by omega) hfits, int64_eq (by omega) (by omega)]
  omega

theorem within_iff {start length : ℤ} {event : ℤ × Option ReconnectDecision} :
    within start length event = true ↔ start ≤ event.1 ∧ event.1 ≤ start + length := decide_eq_true_iff

theorem window_kept (hw : 0 < s.policy.stormWindow) (hfits : s.policy.stormWindow * 1000000 < 2 ^ 63) {start : ℤ}
    (hordered : Ordered calls)
    (hquiet : ∀ event ∈ events s calls, within start (s.policy.stormWindow * 1000000) event = true → Quiet event) :
    ((events s calls).filter (within start (s.policy.stormWindow * 1000000))).length ≤ s.policy.stormAttempts ∧
      ((∀ call ∈ calls, call.1 ≤ start + s.policy.stormWindow * 1000000) →
        ((events s calls).filter (within start (s.policy.stormWindow * 1000000))).map Prod.fst <:+
          (Runs.run step s calls).attempts) := by
  induction calls using List.reverseRecOn with
  | nil => exact ⟨Nat.zero_le _, fun _ => List.nil_suffix⟩
  | append_singleton calls call ih =>
    obtain ⟨now, kind⟩ := call
    rw [Ordered, List.map_append, List.pairwise_append] at hordered
    obtain ⟨hordered, -, hlast⟩ := hordered
    have hle : ∀ call ∈ calls, call.1 ≤ now := fun call hc => hlast call.1 (List.mem_map_of_mem hc) now (by simp)
    have hpast := event_time_le (s := s) hle
    rw [events_append, Runs.run_append] at *
    simp only [events, Runs.run_cons, Runs.run_nil, List.forall_mem_append, List.forall_mem_singleton] at hquiet ⊢
    obtain ⟨hbefore, hnow⟩ := hquiet
    obtain ⟨hcount, hkept⟩ := ih hordered hbefore
    by_cases hnowin : within start (s.policy.stormWindow * 1000000) (record (Runs.run step s calls) (now, kind)) = true
    · obtain ⟨hstart, hend⟩ := within_iff.mp hnowin
      rw [record_time] at hstart hend
      obtain ⟨hattempts, hroom⟩ := attempts_of_quiet (hnow hnowin)
      rw [run_policy] at hroom
      -- every earlier retry of the interval is fresh at this time
      have hfresh : ∀ time ∈ ((events s calls).filter (within start (s.policy.stormWindow * 1000000))).map Prod.fst,
          decide (nanoseconds s.policy.stormWindow < int64 (now - time)) = false := by
        intro time ht
        obtain ⟨event, he, rfl⟩ := List.mem_map.mp ht
        obtain ⟨hmem, hevent⟩ := List.mem_filter.mp he
        have hfrom := (within_iff.mp hevent).1
        exact fresh hw hfits (hpast event hmem) (by omega)
      have hsuffix := suffix_dropWhile (hkept (fun call hc => (hle call hc).trans hend)) hfresh
      have hgrown : ((events s calls).filter (within start (s.policy.stormWindow * 1000000))).map Prod.fst ++ [now] <:+
          (Runs.run step s calls).recent now := by
        obtain ⟨older, ho⟩ := hsuffix
        exact ⟨older, by rw [← List.append_assoc, ho, recent, run_policy]⟩
      rw [List.filter_append, List.filter_cons_of_pos hnowin, List.filter_nil, List.map_append, List.length_append, hattempts]
      constructor
      · have hlength := hgrown.length_le
        rw [List.length_append, List.length_map] at hlength
        exact hlength.trans hroom
      · intro _
        simpa using hgrown
    · rw [List.filter_append, List.filter_cons_of_neg hnowin, List.filter_nil, List.append_nil]
      refine ⟨hcount, fun hend => ?_⟩
      -- before the interval nothing has been counted
      have hsoon : now < start := by
        by_contra hlate
        apply hnowin
        rw [within_iff, record_time]
        exact ⟨not_lt.mp hlate, hend.2⟩
      have hnone : (events s calls).filter (within start (s.policy.stormWindow * 1000000)) = [] := by
        rw [List.filter_eq_nil_iff]
        intro event he hevent
        have hfrom := (within_iff.mp hevent).1
        have := hpast event he
        omega
      rw [hnone]
      exact List.nil_suffix

end

section

variable {s : ReconnectBackoff}

structure AtZero (policy : ReconnectPolicy) (n : ℕ) (s : ReconnectBackoff) : Prop where
  policy_eq : s.policy = policy
  zeros : ∀ attempt ∈ s.attempts, attempt = 0
  few : s.attempts.length ≤ n
  cool : s.cooldownUntil = 0

theorem quiet_of_room {now : ℤ} (hcool : ¬now < s.cooldownUntil) (hroom : (s.recent now).length ≤ s.policy.stormAttempts) :
    Quiet (record s (now, .next)) ∧ (step s (now, .next)).attempts = s.recent now ∧
      (step s (now, .next)).cooldownUntil = s.cooldownUntil := by
  have hdecides := next_decides s now
  change (∃ delay, some (s.next now).1 = some ⟨delay, false⟩) ∧ (s.next now).2.attempts = _ ∧ (s.next now).2.cooldownUntil = _
  cases hnext : s.next now with
  | mk decision after =>
    rw [hnext] at hdecides
    cases hdecides with
    | waits hw => exact absurd hw hcool
    | storms hw hfull => exact absurd hfull (not_lt.mpr hroom)
    | retries hw hroom => exact ⟨⟨_, rfl⟩, rfl, rfl⟩

theorem length_recent_le (s : ReconnectBackoff) (now : ℤ) : (s.recent now).length ≤ s.attempts.length + 1 := by
  rw [recent, List.length_append, List.length_singleton]
  exact Nat.add_le_add_right (List.dropWhile_suffix _).length_le 1

variable {policy : ReconnectPolicy}

theorem AtZero.step {n : ℕ} (h : AtZero policy n s) (hn : n < policy.stormAttempts) :
    Quiet (record s (0, .next)) ∧ AtZero policy (n + 1) (step s (0, .next)) := by
  have hroom : (s.recent 0).length ≤ n + 1 := (length_recent_le s 0).trans (Nat.add_le_add_right h.few 1)
  have hzero : ¬0 < s.cooldownUntil := by
    rw [h.cool]
    exact lt_irrefl 0
  obtain ⟨hquiet, hattempts, hcool⟩ := quiet_of_room hzero (hroom.trans (by rw [h.policy_eq]; exact hn))
  refine ⟨hquiet, (step_policy s _).trans h.policy_eq, ?_, hattempts ▸ hroom, hcool.trans h.cool⟩
  intro attempt ha
  rw [hattempts, recent, List.mem_append, List.mem_singleton] at ha
  exact ha.elim (fun ha => h.zeros attempt ((List.dropWhile_suffix _).subset ha)) id

theorem AtZero.run {n k : ℕ} (h : AtZero policy n s) (hn : n + k ≤ policy.stormAttempts) :
    (∀ event ∈ events s (List.replicate k (0, .next)), Quiet event) ∧
      AtZero policy (n + k) (Runs.run ReconnectBackoff.step s (List.replicate k (0, .next))) := by
  induction k generalizing n s with
  | zero => exact ⟨fun _ he => (nomatch he), h⟩
  | succ k ih =>
    obtain ⟨hquiet, hstep⟩ := h.step (by omega)
    obtain ⟨hlater, hrun⟩ := ih hstep (by omega)
    rw [List.replicate_succ, events, Runs.run_cons, List.forall_mem_cons]
    refine ⟨⟨hquiet, hlater⟩, ?_⟩
    rwa [Nat.add_right_comm, Nat.add_assoc] at hrun

/-- A window that does not fit forgets attempts that it should count: one more than allowed is never noticed. -/
theorem unbounded_of_overflow (seed : BitVec 64) (ha : Accepted policy) (h : 2 ^ 63 ≤ policy.stormWindow * 1000000) :
    ∃ calls, Ordered calls ∧ (∀ call ∈ calls, Representable call.1) ∧
      ¬Bounded policy (events (ofPolicy policy seed) calls) := by
  have hstart : AtZero policy 0 (ofPolicy policy seed) := ⟨rfl, fun _ ha => (nomatch ha), le_refl 0, rfl⟩
  obtain ⟨hquiet, hzero⟩ := hstart.run (Nat.zero_add policy.stormAttempts).le
  -- the wrapped window is a multiple of sixty-four, so a time just after it is still on the clock
  obtain ⟨hlow, hhigh, quotient, hwrap⟩ := int64_spec (policy.stormWindow * 1000000)
  obtain ⟨late, hlate, hnonneg, hfits⟩ : ∃ late : ℤ, nanoseconds policy.stormWindow < late ∧ 0 ≤ late ∧ late < 2 ^ 63 := by
    rw [nanoseconds]
    exact ⟨max (int64 (policy.stormWindow * 1000000) + 1) 0, by omega, by omega, by omega⟩
  have hlast : Quiet (record (Runs.run step (ofPolicy policy seed) (List.replicate policy.stormAttempts (0, .next))) (late, .next)) := by
    apply (quiet_of_room _ _).1
    · rw [hzero.cool]
      exact not_lt.mpr hnonneg
    · have hnone : (Runs.run step (ofPolicy policy seed) (List.replicate policy.stormAttempts (0, .next))).recent late = [late] := by
        rw [recent, List.dropWhile_eq_nil_iff.mpr, List.nil_append]
        intro attempt hattempt
        rw [hzero.zeros attempt hattempt, hzero.policy_eq, sub_zero, int64_eq (by omega) hfits]
        exact decide_eq_true hlate
      rw [hnone, hzero.policy_eq]
      exact ha.attempts_pos
  refine ⟨List.replicate policy.stormAttempts (0, .next) ++ [(late, .next)], ?_, ?_, ?_⟩
  · rw [Ordered, List.map_append, List.map_replicate, List.pairwise_append]
    refine ⟨List.pairwise_replicate_of_refl, List.pairwise_singleton _ _, ?_⟩
    intro first hfirst last hl
    rw [List.eq_of_mem_replicate hfirst, List.mem_singleton.mp hl]
    exact hnonneg
  · intro call hc
    rcases List.mem_append.mp hc with hc | hc
    · rw [List.eq_of_mem_replicate hc]
      exact ⟨by norm_num, by norm_num⟩
    · rw [List.mem_singleton.mp hc]
      exact ⟨by omega, hfits⟩
  · intro hbounded
    have hall : ∀ event ∈ events (ofPolicy policy seed) (List.replicate policy.stormAttempts (0, .next) ++ [(late, .next)]),
        Quiet event := by
      rw [events_append, List.forall_mem_append]
      exact ⟨hquiet, List.forall_mem_singleton.mpr hlast⟩
    have hinside : ∀ event ∈ events (ofPolicy policy seed) (List.replicate policy.stormAttempts (0, .next) ++ [(late, .next)]),
        within 0 (policy.stormWindow * 1000000) event = true := by
      intro event he
      have ht := List.mem_map_of_mem (f := Prod.fst) he
      rw [events_times, List.map_append, List.map_replicate, List.mem_append] at ht
      rw [within_iff]
      rcases ht with ht | ht
      · rw [List.eq_of_mem_replicate ht]
        omega
      · rw [List.mem_singleton.mp ht]
        omega
    have hcount := hbounded 0 (fun event he _ => hall event he)
    rw [List.filter_eq_self.mpr hinside, ← List.length_map Prod.fst, events_times] at hcount
    simp at hcount

end

section

def Starts (s : ReconnectBackoff) (time : ℤ) : Prop := ¬time < s.cooldownUntil ∧ (s.next time).1.stormCooldown = true

instance (s : ReconnectBackoff) (time : ℤ) : Decidable (Starts s time) := inferInstanceAs (Decidable (_ ∧ _))

def HoldsOff (s : ReconnectBackoff) (now target : ℤ) : Prop :=
  (s.next now).1.stormCooldown = true ∧ target ≤ now + (s.next now).1.delay * 1000000

variable {s : ReconnectBackoff} {time now : ℤ}

theorem next_of_starts (h : Starts s time) : (s.next time).2 =
    { s with attempts := [], cooldownUntil := int64 (time + nanoseconds s.policy.stormCooldown) } := by
  obtain ⟨hcool, hstorm⟩ := h
  have hdecides := next_decides s time
  cases hnext : s.next time with
  | mk decision after =>
    rw [hnext] at hdecides hstorm
    cases hdecides with
    | waits hw => exact absurd hw hcool
    | storms hw hfull => rfl
    | retries hw hroom => cases hstorm

theorem next_waits (h : now < s.cooldownUntil) :
    s.next now = (⟨(int64 (s.cooldownUntil - now) + 999999) / 1000000, true⟩, s) := if_pos h

theorem run_waits {calls : List (ℤ × Call)} (hnext : ∀ call ∈ calls, call.2 = .next) (h : ∀ call ∈ calls, call.1 < s.cooldownUntil) :
    Runs.run step s calls = s := by
  induction calls with
  | nil => rfl
  | cons call calls ih =>
    obtain ⟨time, kind⟩ := call
    rw [List.forall_mem_cons] at hnext h
    obtain ⟨rfl, hnext⟩ := hnext
    have hstep : step s (time, .next) = s := congrArg Prod.snd (next_waits h.1)
    rw [Runs.run_cons, hstep]
    exact ih hnext h.2

theorem int64_add (m n : ℤ) : int64 (m + int64 n) = int64 (m + n) := Int.add_bmod_bmod

theorem held_off_iff (ha : Accepted s.policy) (ht : Representable time) (h : Starts s time) :
    (∀ later now, Ordered ((time, .next) :: later ++ [(now, .next)]) → (∀ call ∈ later, call.2 = .next) →
      now < time + s.policy.stormCooldown * 1000000 →
      HoldsOff (Runs.run step (s.next time).2 later) now (time + s.policy.stormCooldown * 1000000)) ↔
    s.policy.stormCooldown * 1000000 < 2 ^ 63 ∧ time + s.policy.stormCooldown * 1000000 < 2 ^ 63 := by
  obtain ⟨hlow, hhigh⟩ := ht
  have hpos := ha.cooldown_pos
  rw [next_of_starts h, nanoseconds, int64_add]
  constructor
  · intro hheld
    obtain ⟨hcooldown, hdelay⟩ := hheld [] time (by simp [Ordered]) (fun _ hc => (nomatch hc)) (by omega)
    obtain ⟨-, hend, turns, hturns⟩ := int64_spec (time + s.policy.stormCooldown * 1000000)
    rw [Runs.run_nil] at hcooldown hdelay
    by_cases hw : time < int64 (time + s.policy.stormCooldown * 1000000)
    · rw [next_waits hw] at hdelay
      dsimp only at hdelay
      obtain ⟨-, hwait, laps, hlaps⟩ := int64_spec (int64 (time + s.policy.stormCooldown * 1000000) - time)
      omega
    · obtain ⟨⟨delay, hquiet⟩, -⟩ := quiet_of_room (s := { s with
        attempts := [], cooldownUntil := int64 (time + s.policy.stormCooldown * 1000000) }) hw ha.attempts_pos
      rw [Option.some.inj hquiet] at hcooldown
      cases hcooldown
  · rintro ⟨hcooldown, hend⟩ later now hordered hnext hnow
    rw [int64_eq (by omega) hend]
    rw [Ordered, List.cons_append, List.map_cons, List.map_append, List.pairwise_cons, List.pairwise_append] at hordered
    obtain ⟨hfirst, -, -, hlast⟩ := hordered
    have hsince : time ≤ now := hfirst now (by simp)
    have hlater : ∀ call ∈ later, call.1 ≤ now := fun call hc => hlast call.1 (List.mem_map_of_mem hc) now (by simp)
    rw [run_waits hnext (fun call hc => (hlater call hc).trans_lt hnow)]
    have hwaits : now < ({ s with attempts := [], cooldownUntil := time + s.policy.stormCooldown * 1000000 } : ReconnectBackoff).cooldownUntil :=
      hnow
    rw [HoldsOff, next_waits hwaits]
    dsimp only
    rw [int64_eq (by omega) (by omega)]
    exact ⟨rfl, by omega⟩

end

/-- The breaker counts every attempt of its window exactly when the window fits the clock, and keeps a cooldown exactly
when the cooldown and its end do. -/
theorem storm_breaker_iff {policy : ReconnectPolicy} {uniqueSeed : BitVec 64} {start : ReconnectBackoff}
    (h : construct policy uniqueSeed = .ok start) :
    ((∀ calls, Ordered calls → (∀ call ∈ calls, Representable call.1) → Bounded policy (events start calls)) ↔
      policy.stormWindow * 1000000 < 2 ^ 63) ∧
    ∀ calls time, Representable time → Starts (Runs.run step start calls) time →
      ((∀ later now, Ordered ((time, .next) :: later ++ [(now, .next)]) → (∀ call ∈ later, call.2 = .next) →
        now < time + policy.stormCooldown * 1000000 →
        HoldsOff (Runs.run step ((Runs.run step start calls).next time).2 later) now
          (time + policy.stormCooldown * 1000000)) ↔
      policy.stormCooldown * 1000000 < 2 ^ 63 ∧ time + policy.stormCooldown * 1000000 < 2 ^ 63) := by
  obtain ⟨ha, seed, rfl⟩ := construct_ok h
  constructor
  · constructor
    · intro hbounded
      by_contra hlarge
      obtain ⟨calls, hordered, htimes, hexceeds⟩ := unbounded_of_overflow seed ha (not_lt.mp hlarge)
      exact hexceeds (hbounded calls hordered htimes)
    · intro hfits calls hordered _ begin hquiet
      have hkept := window_kept (s := ofPolicy policy seed) ha.window_pos hfits hordered hquiet
      exact hkept.1
  · intro calls time ht hstarts
    have hpolicy : (Runs.run step (ofPolicy policy seed) calls).policy = policy := run_policy _ calls
    have hheld := held_off_iff (s := Runs.run step (ofPolicy policy seed) calls) (hpolicy.symm ▸ ha) ht hstarts
    rwa [hpolicy] at hheld

def touchyPolicy : ReconnectPolicy := { stormAttempts := 1 }

theorem storm_breaker_holds : ∃ start, construct touchyPolicy 1 = .ok start ∧
    Bounded touchyPolicy (events start [(0, .next), (0, .markStable), (7, .next)]) ∧
    HoldsOff (Runs.run step start [(0, .next), (5, .next), (9, .next)]) 11 60000000005 := by
  have hc : construct touchyPolicy 1 = .ok (ofPolicy touchyPolicy 1) := by decide
  obtain ⟨hwindow, hcooldown⟩ := storm_breaker_iff hc
  refine ⟨_, hc, hwindow.mpr (by decide) _ (by decide) (by decide), ?_⟩
  exact (hcooldown [(0, .next)] 5 (by decide) (by decide)).mpr (by decide) [(9, .next)] 11 (by decide)
    (by decide) (by decide)

theorem storm_breaker_overflows :
    (∃ start, construct { stormAttempts := 1, stormWindow := 2 ^ 63 - 1 } 1 = .ok start ∧
      (events start [(0, .next), (0, .next)]).map (fun event => event.2.map ReconnectDecision.stormCooldown) =
        [some false, some false]) ∧
    ∃ start, construct { stormAttempts := 1, stormCooldown := 2 ^ 63 - 1 } 1 = .ok start ∧
      (events start [(0, .next), (0, .next), (0, .next)]).map (fun event => event.2.map ReconnectDecision.stormCooldown) =
        [some false, some true, some false] := by
  constructor
  · exact ⟨ofPolicy { stormAttempts := 1, stormWindow := 2 ^ 63 - 1 } 1, by decide, by decide⟩
  · exact ⟨ofPolicy { stormAttempts := 1, stormCooldown := 2 ^ 63 - 1 } 1, by decide, by decide⟩

end PredictFun.Net.ReconnectBackoff
