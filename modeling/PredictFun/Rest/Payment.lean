import PredictFun.Rest.Reads

namespace PredictFun.Rest

open Base Net Trading

namespace Operation

variable {s t : Operation} {event : Event} {now : ℚ} {spare : Multiset ℚ}

/-- Every request handed over and every wait for the budget has a reservation of its own, released by then;
`spare` is left over. -/
def Covers (spare : Multiset ℚ) (s : Operation) : Prop :=
  ∃ paid waiting : List ℚ, spare + paid + waiting ≤ (s.reservations : Multiset ℚ) ∧
    List.Forall₂ (fun get release => release ≤ get.time) s.gets paid ∧
    List.Forall₂ (fun wait release => release ≤ wait.expiry)
      (s.waits.filter (fun wait => !wait.reserveBudget)) waiting

theorem Covers.weaken {fewer : Multiset ℚ} (h : Covers spare s) (hle : fewer ≤ spare) : Covers fewer s := by
  obtain ⟨paid, waiting, hsum, hpaid, hwaiting⟩ := h
  refine ⟨paid, waiting, le_trans ?_ hsum, hpaid, hwaiting⟩
  gcongr

theorem Covers.finish (h : Covers spare s) (result : Result HttpResponse) : Covers spare (s.finish result) := by
  simpa [Covers] using h

theorem Covers.reserve (h : Covers spare s) (release : ℚ) :
    Covers (release ::ₘ spare) { s with reservations := s.reservations ++ [release] } := by
  obtain ⟨paid, waiting, hsum, hpaid, hwaiting⟩ := h
  refine ⟨paid, waiting, ?_, hpaid, hwaiting⟩
  rw [Multiset.cons_add, Multiset.cons_add, ← Multiset.coe_add, Multiset.coe_singleton, add_comm _ ({release} : Multiset ℚ),
    Multiset.singleton_add]
  exact Multiset.cons_le_cons release hsum

theorem filter_cancel (waits : List Wait) (now : ℚ) :
    (waits.map (Wait.cancel now)).filter (fun wait => !wait.reserveBudget)
      = (waits.filter (fun wait => !wait.reserveBudget)).map (Wait.cancel now) := by
  rw [List.filter_map]
  congr 2
  funext wait
  cases hc : wait.cancelled <;> simp [Wait.cancel, hc]

theorem forall₂_cancel {waits : List Wait} {waiting : List ℚ} (now : ℚ)
    (h : List.Forall₂ (fun wait release => release ≤ wait.expiry) waits waiting) :
    List.Forall₂ (fun wait release => release ≤ wait.expiry) (waits.map (Wait.cancel now)) waiting := by
  rw [List.forall₂_map_left_iff]
  refine h.imp ?_
  intro wait release hle
  cases hc : wait.cancelled <;> simpa [Wait.cancel, hc] using hle

theorem Covers.cancel (h : Covers spare s) (now : ℚ) :
    Covers spare { s with waits := s.waits.map (Wait.cancel now) } := by
  obtain ⟨paid, waiting, hsum, hpaid, hwaiting⟩ := h
  refine ⟨paid, waiting, hsum, hpaid, ?_⟩
  rw [filter_cancel]
  exact forall₂_cancel now hwaiting

theorem Covers.armed_wait {release expiry : ℚ} (h : Covers (release ::ₘ spare) s) (hle : release ≤ expiry) :
    Covers spare (s.armed expiry false now) := by
  obtain ⟨paid, waiting, hsum, hpaid, hwaiting⟩ := h.cancel now
  refine ⟨paid, waiting ++ [release], ?_, hpaid, ?_⟩
  · rw [← Multiset.coe_add, Multiset.coe_singleton, ← add_assoc, add_comm _ ({release} : Multiset ℚ),
      Multiset.singleton_add, ← Multiset.cons_add, ← Multiset.cons_add]
    exact hsum
  · simp only [armed, List.filter_append]
    exact List.rel_append hwaiting (by simpa using hle)

theorem Covers.armed_retry {expiry : ℚ} (h : Covers spare s) : Covers spare (s.armed expiry true now) := by
  obtain ⟨paid, waiting, hsum, hpaid, hwaiting⟩ := h.cancel now
  exact ⟨paid, waiting, hsum, hpaid, by simpa [armed] using hwaiting⟩

theorem Covers.handOver {release : ℚ} {request : HttpRequest} (h : Covers (release ::ₘ spare) s) (hle : release ≤ now) :
    Covers spare (s.handOver now request) := by
  obtain ⟨paid, waiting, hsum, hpaid, hwaiting⟩ := h
  refine ⟨paid ++ [release], waiting, ?_, ?_, hwaiting⟩
  · rw [← Multiset.coe_add, Multiset.coe_singleton, ← add_assoc, add_comm _ ({release} : Multiset ℚ),
      Multiset.singleton_add, ← Multiset.cons_add]
    exact hsum
  · exact List.rel_append hpaid (by simpa using hle)

theorem Covers.started (h : Covers 0 s) (hs : Started true now s t) : Covers 0 t := by
  cases hs with
  | finish result => exact h.finish result
  | spent release result hc hb => exact ((h.reserve release).weaken (Multiset.zero_le _)).finish result
  | wait release expiry hc hb hle => exact (h.reserve release).armed_wait hle
  | send paid request hc hp =>
    obtain ⟨release, hle, rfl⟩ := hp
    exact (h.reserve release).handOver hle

theorem Covers.resumed {release : ℚ} (h : Covers (release ::ₘ 0) s) (hle : release ≤ now)
    (hs : Started false now s t) : Covers 0 t := by
  have hdrop : Covers 0 s := h.weaken (Multiset.zero_le _)
  cases hs with
  | finish result => exact hdrop.finish result
  | spent release result hc hb => cases hb
  | wait release expiry hc hb hle => cases hb
  | send paid request hc hp =>
    obtain rfl : paid = [] := hp
    have hsend : Covers 0 (s.handOver now request) := h.handOver hle
    simpa [handOver] using hsend

theorem Covers.eraseIdx {index : ℕ} {wait : Wait} (h : Covers 0 s) (hw : s.waits[index]? = some wait) :
    if wait.reserveBudget then Covers 0 { s with waits := s.waits.eraseIdx index }
    else ∃ release ≤ wait.expiry, Covers (release ::ₘ 0) { s with waits := s.waits.eraseIdx index } := by
  obtain ⟨paid, waiting, hsum, hpaid, hwaiting⟩ := h
  have hperm : (wait :: s.waits.eraseIdx index).Perm s.waits := by
    obtain ⟨hlt, rfl⟩ := List.getElem?_eq_some_iff.mp hw
    exact List.getElem_cons_eraseIdx_perm hlt
  have hfiltered := hperm.filter (fun wait => !wait.reserveBudget)
  obtain ⟨rest, hrest, hsame⟩ := List.perm_comp_forall₂ hfiltered hwaiting
  rw [zero_add, ← Multiset.coe_eq_coe.mpr hsame] at hsum
  split_ifs with hb
  · rw [List.filter_cons_of_neg (by simp [hb])] at hrest
    exact ⟨paid, rest, by rwa [zero_add], hpaid, hrest⟩
  · rw [List.filter_cons_of_pos (by simp [hb])] at hrest
    obtain ⟨release, others, hle, hothers, rfl⟩ := List.forall₂_cons_left_iff.mp hrest
    refine ⟨release, hle, paid, others, ?_, hpaid, hothers⟩
    rw [Multiset.cons_add, Multiset.cons_add, zero_add]
    rwa [← Multiset.cons_coe, Multiset.add_cons] at hsum

end Operation

def Unthrottled (s : Operation) : Event → Prop
  | .complete _ result _ _ => Operation.throttled result = true → s.options.maxGetRetries ≤ s.attempt
  | _ => True

namespace Operation

variable {s t : Operation} {event : Event}

theorem Covers.move (h : Covers 0 s) (hu : Unthrottled s event) (hm : Move s event t) : Covers 0 t := by
  cases hm with
  | idle => exact h
  | begun hq hs =>
    have hkept : Covers 0 { s with queued := false } := h
    exact hkept.started hs
  | @fired index aborted now credentials wait t hw hs =>
    have herased := h.eraseIdx hw
    rcases hs with ⟨result, rfl⟩ | ⟨hexpired, hs⟩
    · split_ifs at herased with hb
      · exact herased.finish result
      · obtain ⟨release, -, hcovers⟩ := herased
        exact (hcovers.weaken (Multiset.zero_le _)).finish result
    · split_ifs at herased with hb
      · rw [hb] at hs
        exact herased.started hs
      · obtain ⟨release, hle, hcovers⟩ := herased
        rw [Bool.not_eq_true] at hb
        rw [hb] at hs
        exact hcovers.resumed (hle.trans hexpired) hs
  | @handled request result asked now t hr hs =>
    have hkept : Covers 0 { s with completed := s.completed ++ [request] } := h
    cases hs with
    | finish result => exact hkept.finish result
    | exhausted result =>
      have hnext : Covers 0 { s with completed := s.completed ++ [request], attempt := s.attempt + 1 } := h
      exact hnext.finish result
    | retry expiry ha =>
      have hnext : Covers 0 { s with completed := s.completed ++ [request], attempt := s.attempt + 1 } := h
      have hreserve : throttled result = false := by
        by_contra hthrottled
        have hnone := hu (by simpa using hthrottled)
        exact absurd ha (not_lt.mpr hnone)
      rw [hreserve]
      exact hnext.armed_retry
  | stop queued => exact h
  | stopped now result hq =>
    have hkept : Covers 0 { s with stopQueued := false } := h
    exact (hkept.cancel now).finish result

theorem get_covers (kind : Kind) (options : ClientOptions) (endpoint : Bytes) (target : Result Bytes) (deadline : ℚ)
    (stopped : Bool) : Covers 0 (.get kind options endpoint target deadline stopped) := by
  cases target <;> exact ⟨[], [], by simp [get], by simp [get], by simp [get]⟩

theorem Covers.paid (h : Covers 0 s) :
    ∃ paid, paid.Subperm s.reservations ∧ List.Forall₂ (fun get release => release ≤ get.time) s.gets paid := by
  obtain ⟨paid, waiting, hsum, hpaid, -⟩ := h
  refine ⟨paid, Multiset.coe_le.mp (le_trans ?_ hsum), hpaid⟩
  rw [zero_add]
  exact le_add_of_nonneg_right (Multiset.zero_le _)

end Operation

theorem reads_paid (limiter : RateLimiter) (inputs : List Input)
    (hu : Runs.Along System.step (System.Meets Unthrottled) ⟨limiter, []⟩ inputs) :
    ((Runs.run System.step ⟨limiter, []⟩ inputs).operations.map (·.gets.length)).sum
        ≤ ((Runs.run System.step ⟨limiter, []⟩ inputs).operations.map (·.reservations.length)).sum ∧
      ∀ operation ∈ (Runs.run System.step ⟨limiter, []⟩ inputs).operations,
        ∃ paid, paid.Subperm operation.reservations ∧
          List.Forall₂ (fun get release => release ≤ get.time) operation.gets paid := by
  have hall : ∀ operation ∈ (Runs.run System.step ⟨limiter, []⟩ inputs).operations,
      ∃ paid, paid.Subperm operation.reservations ∧
        List.Forall₂ (fun get release => release ≤ get.time) operation.gets paid := by
    intro operation ho
    obtain ⟨index, hi⟩ := List.mem_iff_getElem?.mp ho
    have hcovers : operation.Covers 0 :=
      System.run_operations Operation.get_covers (fun hc hevent hm => hc.move hevent hm) hu hi
    exact hcovers.paid
  refine ⟨List.sum_le_sum ?_, hall⟩
  intro operation ho
  obtain ⟨paid, hsub, hpaid⟩ := hall operation ho
  rw [hpaid.length_eq]
  exact hsub.length_le

def throttledRead (kind : Kind) : List Input :=
  [retriedGet kind, .event 0 (.begin 0 (.given [] [3])), .event 0 (.complete 0 (answered 429) (some 0) 1), retryTimer]

theorem throttled_retry_unpaid :
    ((Runs.run System.step ⟨RateLimiter.started {}, []⟩ (throttledRead .publicRead)).operations.map
        (·.reservations.length)).sum
      < ((Runs.run System.step ⟨RateLimiter.started {}, []⟩ (throttledRead .publicRead)).operations.map
        (·.gets.length)).sum ∧
    ((Runs.run System.step ⟨RateLimiter.started {}, []⟩ (throttledRead .privateRead)).operations.map
        (·.reservations.length)).sum
      < ((Runs.run System.step ⟨RateLimiter.started {}, []⟩ (throttledRead .privateRead)).operations.map
        (·.gets.length)).sum := by
  constructor <;> decide +kernel

theorem retried_read_paid :
    ((Runs.run System.step ⟨RateLimiter.started {}, []⟩ retriedRead).operations.map (·.gets.length)).sum = 2 ∧
    ((Runs.run System.step ⟨RateLimiter.started {}, []⟩ retriedRead).operations.map (·.gets.length)).sum
      ≤ ((Runs.run System.step ⟨RateLimiter.started {}, []⟩ retriedRead).operations.map
        (·.reservations.length)).sum := by
  have hu : Runs.Along System.step (System.Meets Unthrottled) ⟨RateLimiter.started {}, []⟩ retriedRead :=
    ⟨fun _ _ _ he _ => (nomatch he), System.meets_event (fun _ => trivial), System.meets_event (fun _ h => absurd h (by decide)),
      System.meets_event (fun _ => trivial), System.meets_event (fun _ h => absurd h (by decide)), trivial⟩
  exact ⟨by decide +kernel, (reads_paid _ _ hu).1⟩

end PredictFun.Rest
