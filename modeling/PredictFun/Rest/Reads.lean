import PredictFun.Rest.Steps

namespace PredictFun.Rest

open Base Net Trading

namespace Operation

variable {s t : Operation} {event : Event} {now : ℚ} {reserveBudget : Bool}

structure Bounded (s : Operation) : Prop where
  requests : s.gets.length + s.waits.length + s.queued.toNat ≤ 1 + min s.attempt s.options.maxGetRetries
  answers : s.delivered.length + s.handler.toNat = 1
  early : ∀ get ∈ s.gets, ¬ s.past get.time

theorem Bounded.finish (h : Bounded s) (result : Result HttpResponse) : Bounded (s.finish result) := by
  refine ⟨by simpa using h.requests, ?_, by simpa [past] using h.early⟩
  have hanswers := h.answers
  rcases finish_cases result s with ⟨-, he⟩ | ⟨hh, he⟩
  · rwa [he]
  · simpa [he, hh] using hanswers

theorem Bounded.started (h : Bounded s)
    (hr : s.gets.length + s.waits.length + s.queued.toNat + 1 ≤ 1 + min s.attempt s.options.maxGetRetries)
    (hs : Started reserveBudget now s t) : Bounded t := by
  cases hs with
  | finish result => exact h.finish result
  | spent release result hc hb =>
    have hspent : Bounded { s with reservations := s.reservations ++ [release] } := ⟨h.requests, h.answers, h.early⟩
    exact hspent.finish result
  | wait release expiry hc hb hle =>
    refine ⟨?_, h.answers, h.early⟩
    simp only [armed, List.length_append, List.length_map, List.length_singleton]
    omega
  | send paid request hc hp =>
    refine ⟨?_, h.answers, ?_⟩
    · simp only [handOver, List.length_append, List.length_singleton]
      omega
    · simp only [handOver, List.mem_append, List.mem_singleton]
      rintro get (hg | rfl)
      · exact h.early get hg
      · exact hc.early

theorem Bounded.handled {throttled : Bool} (h : Bounded s) (hs : Handled throttled now s t) : Bounded t := by
  have hmore : s.gets.length + s.waits.length + s.queued.toNat
      ≤ 1 + min (s.attempt + 1) s.options.maxGetRetries := by
    have := h.requests
    omega
  cases hs with
  | finish result => exact h.finish result
  | exhausted result =>
    have hnext : Bounded { s with attempt := s.attempt + 1 } := ⟨hmore, h.answers, h.early⟩
    exact hnext.finish result
  | retry expiry ha =>
    refine ⟨?_, h.answers, h.early⟩
    have := h.requests
    simp only [armed, List.length_append, List.length_map, List.length_singleton]
    omega

theorem Bounded.move (h : Bounded s) (hm : Move s event t) : Bounded t := by
  have hrequests := h.requests
  cases hm with
  | idle => exact h
  | begun hq hs =>
    rw [hq, Bool.toNat_true] at hrequests
    have hkept : Bounded { s with queued := false } :=
      ⟨by simp only [Bool.toNat_false]; omega, h.answers, h.early⟩
    exact hkept.started (by simpa using hrequests) hs
  | @fired index aborted now credentials wait t hw hs =>
    have hlt : index < s.waits.length := (List.getElem?_eq_some_iff.mp hw).1
    have hless : (s.waits.eraseIdx index).length + 1 = s.waits.length := by
      rw [List.length_eraseIdx_of_lt hlt]
      omega
    have hkept : Bounded { s with waits := s.waits.eraseIdx index } := ⟨by simp only; omega, h.answers, h.early⟩
    rcases hs with ⟨result, rfl⟩ | ⟨-, hs⟩
    · exact hkept.finish result
    · exact hkept.started (by simp only; omega) hs
  | @handled request result asked now t hr hs =>
    have hkept : Bounded { s with completed := s.completed ++ [request] } := ⟨h.requests, h.answers, h.early⟩
    exact hkept.handled hs
  | stop queued => exact ⟨h.requests, h.answers, h.early⟩
  | stopped now result hq =>
    have hkept : Bounded { s with stopQueued := false, waits := s.waits.map (Wait.cancel now) } :=
      ⟨by simpa using hrequests, h.answers, h.early⟩
    exact hkept.finish result

theorem get_bounded (kind : Kind) (options : ClientOptions) (endpoint : Bytes) (target : Result Bytes) (deadline : ℚ)
    (stopped : Bool) : Bounded (.get kind options endpoint target deadline stopped) := by
  cases target <;> exact ⟨by simp [get], by simp [get], by simp [get]⟩

theorem Started.unclear (hs : Started reserveBudget now s t) (hc : ¬ s.Clear now) : ∃ result, t = s.finish result := by
  cases hs with
  | finish result => exact ⟨result, rfl⟩
  | spent release result h hb => exact absurd h hc
  | wait release expiry h hb hle => exact absurd h hc
  | send paid request h hp => exact absurd h hc

theorem Move.unclear (hm : Move s event t) (hc : ∀ now, s.queued = true ∨ s.waits ≠ [] → ¬ s.Clear now) :
    t.gets = s.gets ∧ t.reservations = s.reservations := by
  cases hm with
  | idle => exact ⟨rfl, rfl⟩
  | @begun now credentials t hq hs =>
    have hunclear : ¬ Clear now { s with queued := false } :=
      fun h => hc now (Or.inl hq) ⟨h.unstopped, h.early, h.handler⟩
    obtain ⟨result, rfl⟩ := hs.unclear hunclear
    simp
  | @fired index aborted now credentials wait t hw hs =>
    have hwaits : s.waits ≠ [] := by
      intro hnil
      simp [hnil] at hw
    have hunclear : ¬ Clear now { s with waits := s.waits.eraseIdx index } :=
      fun h => hc now (Or.inr hwaits) ⟨h.unstopped, h.early, h.handler⟩
    rcases hs with ⟨result, rfl⟩ | ⟨-, hs⟩
    · simp
    · obtain ⟨result, rfl⟩ := hs.unclear hunclear
      simp
  | handled hr hs =>
    cases hs with
    | finish result => simp
    | exhausted result => simp
    | retry expiry ha => exact ⟨rfl, rfl⟩
  | stop queued => exact ⟨rfl, rfl⟩
  | stopped now result hq => simp

theorem Move.kept (hm : Move s event t) :
    t.kind = s.kind ∧ t.options = s.options ∧ (s.stopRequested = true → t.stopRequested = true) ∧
      (s.handler = false → t.handler = false) := by
  cases hm with
  | idle => simp
  | begun hq hs => cases hs <;> simp [armed, handOver]
  | fired hw hs =>
    rcases hs with ⟨result, rfl⟩ | ⟨-, hs⟩
    · simp
    · cases hs <;> simp [armed, handOver]
  | handled hr hs => cases hs <;> simp [armed]
  | stop queued => simp
  | stopped now result hq => simp

end Operation

def retriedGet (kind : Kind) : Input :=
  .get kind { environment := .bnbTestnet, maxGetRetries := 1 } [1] (.ok [2]) 0 false

def answered (status : ℤ) : Result HttpResponse := .ok ⟨status, [], []⟩

def firstRead (inputs : List Input) : Option Operation :=
  (Runs.run System.step ⟨RateLimiter.started {}, []⟩ inputs).operations[0]?

/-- A server error, the retry, a stop request and a second completion of the first request. -/
def stoppedRead : List Input :=
  [retriedGet .privateRead, .event 0 (.begin 0 (.given [] [3])), .event 0 (.complete 0 (answered 503) none 1),
    .event 0 (.fire 0 false 2 (.given [] [3])), .event 0 .requestStop, .event 0 (.complete 0 (answered 503) none 3)]

def Single (s : Operation) : Event → Prop
  | .complete request _ _ _ => s.kind = .publicRead → request ∉ s.completed
  | _ => True

namespace Operation

variable {s t : Operation} {event : Event} {now : ℚ} {reserveBudget : Bool}

/-- In a public operation whose requests are completed once each there is one thing to come at a time: the
dispatched start, a timer or a completion.  When the handler has run there is nothing to come, or the
operation was stopped. -/
structure Settled (s : Operation) : Prop where
  stopQueued : s.stopQueued = true → s.stopRequested = true
  nodup : s.completed.Nodup
  known : ∀ request ∈ s.completed, request < s.gets.length
  single : s.queued.toNat + s.waits.length + s.gets.length ≤ s.completed.length + 1
  ended : s.handler = false →
    s.stopRequested = true ∨ s.queued.toNat + s.waits.length + s.gets.length ≤ s.completed.length

theorem Settled.finish (h : Settled s)
    (he : s.stopRequested = true ∨ s.queued.toNat + s.waits.length + s.gets.length ≤ s.completed.length)
    (result : Result HttpResponse) : Settled (s.finish result) :=
  ⟨by simpa using h.stopQueued, by simpa using h.nodup, by simpa using h.known, by simpa using h.single,
    fun _ => by simpa using he⟩

theorem Settled.started (h : Settled s)
    (he : s.queued.toNat + s.waits.length + s.gets.length ≤ s.completed.length)
    (hh : s.Clear now → s.handler = true) (hs : Started reserveBudget now s t) : Settled t := by
  have going {u : Operation} (hc : s.Clear now) (hu : u.handler = s.handler) :
      u.handler = false → u.stopRequested = true ∨
        u.queued.toNat + u.waits.length + u.gets.length ≤ u.completed.length := by
    intro hf
    rw [hu, hh hc] at hf
    cases hf
  cases hs with
  | finish result => exact h.finish (Or.inr he) result
  | spent release result hc hb =>
    have hspent : Settled { s with reservations := s.reservations ++ [release] } :=
      ⟨h.stopQueued, h.nodup, h.known, h.single, h.ended⟩
    exact hspent.finish (Or.inr he) result
  | wait release expiry hc hb hle =>
    refine ⟨h.stopQueued, h.nodup, h.known, ?_, going hc rfl⟩
    simp only [armed, List.length_append, List.length_map, List.length_singleton]
    omega
  | send paid request hc hp =>
    refine ⟨h.stopQueued, h.nodup, ?_, ?_, going hc rfl⟩
    · intro request hr
      have := h.known request hr
      simp only [handOver, List.length_append, List.length_singleton]
      omega
    · simp only [handOver, List.length_append, List.length_singleton]
      omega

theorem get_settled (kind : Kind) (options : ClientOptions) (endpoint : Bytes) (target : Result Bytes) (deadline : ℚ)
    (stopped : Bool) : (get kind options endpoint target deadline stopped).kind = .publicRead →
      Settled (.get kind options endpoint target deadline stopped) := by
  intro _
  cases target <;> exact ⟨by simp [get], by simp [get], by simp [get], by simp [get], by simp [get]⟩

theorem length_le_of_nodup {requests : List ℕ} {bound : ℕ} (hn : requests.Nodup) (hb : ∀ request ∈ requests, request < bound) :
    requests.length ≤ bound := by
  have hsub : requests ⊆ List.range bound := fun request hr => List.mem_range.mpr (hb request hr)
  simpa using (hn.subperm hsub).length_le

theorem Settled.handler_of_pending (h : Settled s) (hp : s.queued = true ∨ s.waits ≠ [])
    (hs : s.stopRequested = false) : s.handler = true := by
  by_contra hh
  have hle := length_le_of_nodup h.nodup h.known
  have hpending : 0 < s.queued.toNat + s.waits.length := by
    rcases hp with hq | hw
    · simp [hq]
    · have := List.length_pos_iff.mpr hw
      omega
  rcases h.ended (by simpa using hh) with hstop | hnothing
  · simp [hs] at hstop
  · omega

theorem Settled.handled {throttled : Bool} (h : Settled s) (he : s.queued.toNat + s.waits.length + s.gets.length ≤ s.completed.length)
    (hh : s.handler = false → s.stopRequested = true) (hs : Handled throttled now s t) : Settled t := by
  cases hs with
  | finish result => exact h.finish (Or.inr he) result
  | exhausted result =>
    have hnext : Settled { s with attempt := s.attempt + 1 } := ⟨h.stopQueued, h.nodup, h.known, h.single, h.ended⟩
    exact hnext.finish (Or.inr he) result
  | retry expiry ha =>
    refine ⟨h.stopQueued, h.nodup, h.known, ?_, fun hf => Or.inl (hh hf)⟩
    simp only [armed, List.length_append, List.length_map, List.length_singleton]
    omega

theorem Settled.move (h : Settled s) (hk : s.kind = .publicRead) (hone : Single s event) (hm : Move s event t) :
    Settled t := by
  have hsingle := h.single
  cases hm with
  | idle => exact h
  | begun hq hs =>
    have hpending := h.handler_of_pending (Or.inl hq)
    rw [hq, Bool.toNat_true] at hsingle
    have hkept : Settled { s with queued := false } :=
      ⟨h.stopQueued, h.nodup, h.known, by simp only [Bool.toNat_false]; omega,
        fun _ => Or.inr (by simp only [Bool.toNat_false]; omega)⟩
    exact hkept.started (by simp only [Bool.toNat_false]; omega) (fun hc => hpending hc.unstopped) hs
  | @fired index aborted now credentials wait t hw hs =>
    have hlt : index < s.waits.length := (List.getElem?_eq_some_iff.mp hw).1
    have hless : (s.waits.eraseIdx index).length + 1 = s.waits.length := by
      rw [List.length_eraseIdx_of_lt hlt]
      omega
    have hpending := h.handler_of_pending (Or.inr (List.ne_nil_of_length_pos (by omega)))
    have hlive : s.queued.toNat + (s.waits.eraseIdx index).length + s.gets.length ≤ s.completed.length := by omega
    have hkept : Settled { s with waits := s.waits.eraseIdx index } :=
      ⟨h.stopQueued, h.nodup, h.known, by simp only; omega, fun _ => Or.inr hlive⟩
    rcases hs with ⟨result, rfl⟩ | ⟨-, hs⟩
    · exact hkept.finish (Or.inr hlive) result
    · exact hkept.started hlive (fun hc => hpending hc.unstopped) hs
  | @handled request result asked now t hr hs =>
    have hnew : request ∉ s.completed := hone hk
    have hnodup : (s.completed ++ [request]).Nodup := by
      refine List.Nodup.append h.nodup (List.nodup_singleton request) ?_
      simpa using hnew
    have hknown : ∀ other ∈ s.completed ++ [request], other < s.gets.length := by
      simp only [List.mem_append, List.mem_singleton]
      rintro other (ho | rfl)
      · exact h.known other ho
      · exact hr
    -- the completion was the one thing to come
    have hle := length_le_of_nodup hnodup hknown
    simp only [List.length_append, List.length_singleton] at hle
    have hlive : s.queued.toNat + s.waits.length + s.gets.length ≤ (s.completed ++ [request]).length := by
      simp only [List.length_append, List.length_singleton]
      omega
    have hkept : Settled { s with completed := s.completed ++ [request] } :=
      ⟨h.stopQueued, hnodup, hknown, by simp only; omega, fun _ => Or.inr hlive⟩
    refine hkept.handled hlive ?_ hs
    intro hf
    rcases h.ended hf with hstop | hnothing
    · exact hstop
    · omega
  | stop queued => exact ⟨fun _ => rfl, h.nodup, h.known, h.single, fun _ => Or.inl rfl⟩
  | stopped now result hq =>
    have hstop := h.stopQueued hq
    have hkept : Settled { s with stopQueued := false, waits := s.waits.map (Wait.cancel now) } :=
      ⟨by simp, h.nodup, h.known, by simpa using h.single, fun _ => Or.inl hstop⟩
    exact hkept.finish (Or.inl hstop) result

end Operation

theorem finished_stays_finished (limiter : RateLimiter) (first second : List Input)
    (hone : Runs.Along System.step (System.Meets Single) ⟨limiter, []⟩ (first ++ second)) (index : ℕ)
    (operation : Operation)
    (h : (Runs.run System.step ⟨limiter, []⟩ first).operations[index]? = some operation)
    (hdelivered : operation.delivered ≠ []) :
    ∃ after, (Runs.run System.step ⟨limiter, []⟩ (first ++ second)).operations[index]? = some after ∧
      after.gets = operation.gets ∧ after.reservations = operation.reservations := by
  obtain ⟨hfirst, hsecond⟩ := (Runs.along_append System.step _ _ first second).mp hone
  have hbounded : operation.Bounded :=
    System.run_operations Operation.get_bounded (fun hb _ hm => hb.move hm) (System.meets_true _ _) h
  have hfinished : operation.handler = false := by
    have hanswers := hbounded.answers
    have := List.length_pos_iff.mpr hdelivered
    by_contra hh
    rw [Bool.not_eq_false] at hh
    rw [hh, Bool.toNat_true] at hanswers
    omega
  have hsettled : operation.kind = .publicRead → operation.Settled := by
    refine System.run_operations (I := fun operation => operation.kind = .publicRead → operation.Settled)
      Operation.get_settled ?_ hfirst h
    intro before event after hb hevent hm hk
    have hkind := hm.kept.1.symm.trans hk
    exact (hb hkind).move hkind hevent hm
  rw [Runs.run_append]
  refine System.run_done (D := fun operation => operation.handler = false ∧
    (operation.kind = .publicRead → operation.Settled)) ?_ hsecond h ⟨hfinished, hsettled⟩
  rintro before event after ⟨hf, hs⟩ hevent hm
  refine ⟨⟨hm.kept.2.2.2 hf, ?_⟩, hm.unclear ?_⟩
  · intro hk
    have hkind := hm.kept.1.symm.trans hk
    exact (hs hkind).move hkind hevent hm
  · intro now hpending hc
    cases hk : before.kind with
    | publicRead => exact absurd ((hs hk).handler_of_pending hpending hc.unstopped) (by simp [hf])
    | privateRead => exact absurd (hc.handler hk) (by simp [hf])

/-- The request is completed twice: the first completion sets a retry timer, the second one ends the read. -/
def duplicated (kind : Kind) : List Input :=
  [retriedGet kind, .event 0 (.begin 0 (.given [] [3])), .event 0 (.complete 0 (answered 503) none 1),
    .event 0 (.complete 0 (answered 200) none 1)]

def retryTimer : Input := .event 0 (.fire 0 false 2 (.given [] [3]))

theorem duplicate_completion_sends_again :
    ∃ operation after,
      firstRead (duplicated .publicRead) = some operation ∧ operation.delivered ≠ [] ∧
      firstRead (duplicated .publicRead ++ [retryTimer]) = some after ∧
      after.gets.length = operation.gets.length + 1 ∧
      after.reservations.length = operation.reservations.length + 1 := by
  have hfirst : (firstRead (duplicated .publicRead)).map
      (fun s => (s.delivered.length, s.gets.length, s.reservations.length)) = some (1, 1, 1) := by decide +kernel
  have hsecond : (firstRead (duplicated .publicRead ++ [retryTimer])).map
      (fun s => (s.gets.length, s.reservations.length)) = some (2, 2) := by decide +kernel
  obtain ⟨operation, ho, hfields⟩ := Option.map_eq_some_iff.mp hfirst
  obtain ⟨after, ha, hfields'⟩ := Option.map_eq_some_iff.mp hsecond
  simp only [Prod.mk.injEq] at hfields hfields'
  refine ⟨operation, after, ho, ?_, ha, by omega, by omega⟩
  exact List.ne_nil_of_length_pos (by omega)

def retriedRead : List Input :=
  [retriedGet .publicRead, .event 0 (.begin 0 (.given [] [3])), .event 0 (.complete 0 (answered 503) none 1),
    retryTimer, .event 0 (.complete 1 (answered 200) none 3)]

theorem retried_read_finishes :
    ∃ operation after,
      firstRead retriedRead = some operation ∧ operation.gets.length = 2 ∧
      firstRead (retriedRead ++ [.event 0 .requestStop]) = some after ∧
      after.gets = operation.gets ∧ after.reservations = operation.reservations := by
  have hnew {s : System} {request : ℕ} {result : Result HttpResponse} {asked : Option ℤ} {now : ℚ}
      (h : ((s.operations[0]?).map (fun operation => decide (request ∈ operation.completed))) = some false) :
      System.Meets Single s (.event 0 (.complete request result asked now)) := by
    intro index event operation he ho
    cases he
    rw [ho] at h
    exact fun _ => by simpa using h
  have hone : Runs.Along System.step (System.Meets Single) ⟨RateLimiter.started {}, []⟩
      (retriedRead ++ [.event 0 .requestStop]) :=
    ⟨fun _ _ _ he _ => (nomatch he), System.meets_event (fun _ => trivial), hnew (by decide +kernel),
      System.meets_event (fun _ => trivial), hnew (by decide +kernel), System.meets_event (fun _ => trivial), trivial⟩
  have hrun : (firstRead retriedRead).map
      (fun s => (s.gets.length, s.delivered.length)) = some (2, 1) := by decide +kernel
  obtain ⟨operation, ho, hfields⟩ := Option.map_eq_some_iff.mp hrun
  simp only [Prod.mk.injEq] at hfields
  obtain ⟨after, ha, hg, hr⟩ := finished_stays_finished _ _ _ hone 0 operation ho
    (List.ne_nil_of_length_pos (by omega))
  exact ⟨operation, after, ho, hfields.1, ha, hg, hr⟩

end PredictFun.Rest
