import PredictFun.Rest.Operation

namespace PredictFun.Rest

open Base Net Trading

namespace Operation

variable {s t : Operation} {now : ℚ} {limiter : RateLimiter} {credentials : Credentials} {reserveBudget : Bool}

section

variable (result : Result HttpResponse) (s : Operation)

theorem finish_cases : (s.handler = false ∧ s.finish result = s) ∨
    (s.handler = true ∧ s.finish result = { s with handler := false, delivered := s.delivered ++ [result] }) := by
  unfold finish
  cases h : s.handler <;> simp

@[simp] theorem finish_kind : (s.finish result).kind = s.kind := by unfold finish; split <;> rfl

@[simp] theorem finish_options : (s.finish result).options = s.options := by unfold finish; split <;> rfl

@[simp] theorem finish_deadline : (s.finish result).deadline = s.deadline := by unfold finish; split <;> rfl

@[simp] theorem finish_queued : (s.finish result).queued = s.queued := by unfold finish; split <;> rfl

@[simp] theorem finish_stopRequested : (s.finish result).stopRequested = s.stopRequested := by
  unfold finish; split <;> rfl

@[simp] theorem finish_stopQueued : (s.finish result).stopQueued = s.stopQueued := by unfold finish; split <;> rfl

@[simp] theorem finish_handler : (s.finish result).handler = false := by
  rcases finish_cases result s with ⟨h, he⟩ | ⟨-, he⟩
  · rw [he, h]
  · rw [he]

@[simp] theorem finish_attempt : (s.finish result).attempt = s.attempt := by unfold finish; split <;> rfl

@[simp] theorem finish_waits : (s.finish result).waits = s.waits := by unfold finish; split <;> rfl

@[simp] theorem finish_reservations : (s.finish result).reservations = s.reservations := by
  unfold finish; split <;> rfl

@[simp] theorem finish_gets : (s.finish result).gets = s.gets := by unfold finish; split <;> rfl

@[simp] theorem finish_completed : (s.finish result).completed = s.completed := by unfold finish; split <;> rfl

end

def armed (expiry : ℚ) (reserveBudget : Bool) (now : ℚ) (s : Operation) : Operation :=
  { s with waits := s.waits.map (Wait.cancel now) ++ [{ expiry := expiry, reserveBudget := reserveBudget }] }

theorem schedule_cases (delay : ℤ) (reserveBudget : Bool) (now : ℚ) (s : Operation) :
    (∃ result, s.schedule delay reserveBudget now = s.finish result) ∨
      s.schedule delay reserveBudget now = s.armed (now + RateLimiter.seconds delay) reserveBudget now := by
  unfold schedule
  dsimp only
  split_ifs
  · exact Or.inl ⟨_, rfl⟩
  · exact Or.inr rfl

structure Clear (now : ℚ) (s : Operation) : Prop where
  unstopped : s.stopRequested = false
  early : ¬ s.past now
  handler : s.kind = .privateRead → s.handler = true

inductive Started (reserveBudget : Bool) (now : ℚ) (s : Operation) : Operation → Prop
  | finish (result : Result HttpResponse) : Started reserveBudget now s (s.finish result)
  | spent (release : ℚ) (result : Result HttpResponse) (hc : s.Clear now) (hb : reserveBudget = true) :
    Started reserveBudget now s ({ s with reservations := s.reservations ++ [release] }.finish result)
  | wait (release expiry : ℚ) (hc : s.Clear now) (hb : reserveBudget = true) (hr : release ≤ expiry) :
    Started reserveBudget now s ({ s with reservations := s.reservations ++ [release] }.armed expiry false now)
  | send (paid : List ℚ) (request : HttpRequest) (hc : s.Clear now)
      (hp : if reserveBudget then ∃ release ≤ now, paid = [release] else paid = []) :
    Started reserveBudget now s ({ s with reservations := s.reservations ++ paid }.handOver now request)

def Sends (now : ℚ) (send : Operation → Operation) : Prop :=
  ∀ s, (∃ result, send s = s.finish result) ∨ ∃ request, send s = s.handOver now request

theorem startWith_started {send : Operation → Operation} (hs : Sends now send)
    (hh : s.kind = .privateRead → s.handler = true) :
    Started reserveBudget now s (s.startWith send reserveBudget now limiter).2 := by
  unfold startWith
  split_ifs with hstop hpast hbudget
  · exact .finish _
  · exact .finish _
  · have hc : s.Clear now := ⟨by simpa using hstop, hpast, hh⟩
    -- the wait in milliseconds is not shorter than the exact delay
    have hceil : limiter.release s.endpoint now ≤ now + RateLimiter.seconds (limiter.reserve s.endpoint now).1 := by
      simp only [RateLimiter.release, RateLimiter.reserve, RateLimiter.seconds]
      have := Int.le_ceil ((limiter.reservation s.endpoint now).1 * 1000)
      linarith
    dsimp only
    split_ifs with hwait
    · rcases schedule_cases (limiter.reserve s.endpoint now).1 false now
        { s with reservations := s.reservations ++ [limiter.release s.endpoint now] } with ⟨result, he⟩ | he
      · rw [he]
        exact .spent _ _ hc hbudget
      · rw [he]
        exact .wait _ _ hc hbudget hceil
    · have hnow : limiter.release s.endpoint now ≤ now := by
        have hle : (limiter.reserve s.endpoint now).1 ≤ 0 := not_lt.mp hwait
        have : RateLimiter.seconds (limiter.reserve s.endpoint now).1 ≤ 0 := by
          unfold RateLimiter.seconds
          exact div_nonpos_of_nonpos_of_nonneg (by exact_mod_cast hle) (by norm_num)
        linarith
      rcases hs { s with reservations := s.reservations ++ [limiter.release s.endpoint now] }
        with ⟨result, he⟩ | ⟨request, he⟩
      · rw [he]
        exact .spent _ _ hc hbudget
      · rw [he]
        exact .send _ _ hc (by rw [if_pos hbudget]; exact ⟨_, hnow, rfl⟩)
  · have hc : s.Clear now := ⟨by simpa using hstop, hpast, hh⟩
    rcases hs s with ⟨result, he⟩ | ⟨request, he⟩
    · rw [he]
      exact .finish _
    · have hsend : Started reserveBudget now s ({ s with reservations := s.reservations ++ [] }.handOver now request) :=
        .send [] request hc (by simp [hbudget])
      rw [he]
      simpa using hsend

theorem start_started : Started reserveBudget now s (s.start reserveBudget now credentials limiter).2 := by
  have hpublic : Sends now (PublicRestClient.send credentials now) := by
    intro s
    unfold PublicRestClient.send
    split
    · exact Or.inl ⟨_, rfl⟩
    · split_ifs
      · exact Or.inl ⟨_, rfl⟩
      · exact Or.inr ⟨_, rfl⟩
  have hprivate : Sends now (PrivateRestClient.send credentials now) := by
    intro s
    unfold PrivateRestClient.send
    split
    · exact Or.inl ⟨_, rfl⟩
    · split_ifs
      · exact Or.inl ⟨_, rfl⟩
      · exact Or.inl ⟨_, rfl⟩
      · exact Or.inr ⟨_, rfl⟩
  unfold start
  split
  · rename_i hk
    exact startWith_started hpublic (by simp [hk])
  · unfold PrivateRestClient.start
    split_ifs with hh
    · -- without a handler there is nothing to finish either
      have hfinish : Started reserveBudget now s (s.finish (fail .cancelled "" "")) := .finish _
      simpa [finish, hh] using hfinish
    · exact startWith_started hprivate (fun _ => by simpa using hh)

/-- The two clients sort responses by cases of a different order, with the same outcome. -/
theorem private_handle_eq (result : Result HttpResponse) (asked : Option ℤ) :
    PrivateRestClient.handle result asked now limiter s = PublicRestClient.handle result asked now limiter s := by
  unfold PrivateRestClient.handle PublicRestClient.handle
  cases result with
  | error error => rfl
  | ok response =>
    dsimp only
    by_cases hthrottled : response.status = 429
    · simp [hthrottled]
    · by_cases hserver : 500 ≤ response.status
      · simp [hthrottled, hserver]
      · simp [hthrottled, hserver]

def throttled : Result HttpResponse → Bool
  | .ok response => decide (response.status = 429)
  | .error _ => false

inductive Handled (throttled : Bool) (now : ℚ) (s : Operation) : Operation → Prop
  | finish (result : Result HttpResponse) : Handled throttled now s (s.finish result)
  | exhausted (result : Result HttpResponse) : Handled throttled now s ({ s with attempt := s.attempt + 1 }.finish result)
  | retry (expiry : ℚ) (ha : s.attempt < s.options.maxGetRetries) :
    Handled throttled now s ({ s with attempt := s.attempt + 1 }.armed expiry (!throttled) now)

theorem handle_handled (result : Result HttpResponse) (asked : Option ℤ) :
    Handled (throttled result) now s (s.handle result asked now limiter).2 := by
  have hsame : s.handle result asked now limiter = PublicRestClient.handle result asked now limiter s := by
    unfold handle
    split
    · rfl
    · exact private_handle_eq result asked
  have hretry (delay : ℤ) (h : s.attempt < s.options.maxGetRetries) :
      Handled (throttled result) now s
        ({ s with attempt := s.attempt + 1 }.schedule delay (!throttled result) now) := by
    rcases schedule_cases delay (!throttled result) now { s with attempt := s.attempt + 1 } with ⟨result, he⟩ | he
    · rw [he]
      exact .exhausted _
    · rw [he]
      exact .retry _ h
  rw [hsame]
  unfold PublicRestClient.handle
  cases result with
  | error error => exact .finish _
  | ok response =>
    dsimp only
    split_ifs with _ _ _ hthrottled hleft hserver hleft
    · exact .finish _
    · exact .finish _
    · exact .finish _
    · simpa [throttled, hthrottled] using hretry (retryAfter asked s.attempt) hleft
    · exact .exhausted _
    · simpa [throttled, hthrottled] using hretry (retryAfter asked s.attempt) hleft
    · exact .exhausted _
    · exact .finish _

inductive Move (s : Operation) : Event → Operation → Prop
  | idle (event : Event) : Move s event s
  | begun {now : ℚ} {credentials : Credentials} {t : Operation} (hq : s.queued = true)
      (hs : Started true now { s with queued := false } t) : Move s (.begin now credentials) t
  | fired {index : ℕ} {aborted : Bool} {now : ℚ} {credentials : Credentials} {wait : Wait} {t : Operation}
      (hw : s.waits[index]? = some wait)
      (hs : (∃ result, t = { s with waits := s.waits.eraseIdx index }.finish result) ∨
        wait.expiry ≤ now ∧ Started wait.reserveBudget now { s with waits := s.waits.eraseIdx index } t) :
      Move s (.fire index aborted now credentials) t
  | handled {request : ℕ} {result : Result HttpResponse} {asked : Option ℤ} {now : ℚ} {t : Operation}
      (hr : request < s.gets.length)
      (hs : Handled (throttled result) now { s with completed := s.completed ++ [request] } t) :
      Move s (.complete request result asked now) t
  | stop (queued : Bool) : Move s .requestStop { s with stopRequested := true, stopQueued := queued }
  | stopped (now : ℚ) (result : Result HttpResponse) (hq : s.stopQueued = true) :
      Move s (.stopCallback now)
        ({ s with stopQueued := false, waits := s.waits.map (Wait.cancel now) }.finish result)

theorem turn_move (event : Event) : Move s event (s.turn event limiter).2 := by
  cases event with
  | begin now credentials =>
    unfold turn
    dsimp only
    split_ifs with hq
    · split
      · exact .begun hq (.finish _)
      · exact .begun hq start_started
    · exact .idle _
  | fire index aborted now credentials =>
    unfold turn
    dsimp only
    split
    · exact .idle _
    · rename_i wait hw
      split_ifs with hdue haborted
      · exact .fired hw (Or.inl ⟨_, rfl⟩)
      · have hexpired : wait.expiry ≤ now := by
          rw [Wait.Due, if_neg haborted] at hdue
          exact hdue.1
        exact .fired hw (Or.inr ⟨hexpired, start_started⟩)
      · exact .idle _
  | complete request result asked now =>
    unfold turn
    dsimp only
    split_ifs with hr
    · exact .handled hr (handle_handled _ _)
    · exact .idle _
  | requestStop =>
    unfold turn
    dsimp only
    split_ifs
    · exact .idle _
    · exact .stop _
  | stopCallback now =>
    unfold turn
    dsimp only
    split_ifs with hq
    · exact .stopped _ _ hq
    · exact .idle _

end Operation

namespace System

variable {s : System} {index : ℕ} {operation : Operation}

theorem step_event (event : Event) (h : s.operations[index]? = some operation) :
    s.step (.event index event) = ⟨(operation.turn event s.limiter).1,
      s.operations.set index (operation.turn event s.limiter).2⟩ := by
  simp [step, h]

theorem step_event_none (event : Event) (h : s.operations[index]? = none) : s.step (.event index event) = s := by
  simp [step, h]

theorem step_operation (input : Input) (h : s.operations[index]? = some operation) :
    ∃ next, (s.step input).operations[index]? = some next ∧
      (next = operation ∨ ∃ event, input = .event index event ∧ operation.Move event next) := by
  have hlt : index < s.operations.length := (List.getElem?_eq_some_iff.mp h).1
  cases input with
  | get kind options endpoint target deadline stopped =>
    exact ⟨operation, by simp [step, List.getElem?_append_left hlt, h], Or.inl rfl⟩
  | other call => exact ⟨operation, h, Or.inl rfl⟩
  | event other event =>
    cases ho : s.operations[other]? with
    | none => exact ⟨operation, by rw [step_event_none event ho, h], Or.inl rfl⟩
    | some found =>
      rw [step_event event ho]
      by_cases he : other = index
      · subst he
        obtain rfl : found = operation := Option.some.inj (ho.symm.trans h)
        exact ⟨_, List.getElem?_set_self hlt, Or.inr ⟨event, rfl, Operation.turn_move event⟩⟩
      · exact ⟨operation, by rw [List.getElem?_set_ne he, h], Or.inl rfl⟩

theorem step_origin (input : Input) (h : (s.step input).operations[index]? = some operation) :
    (∃ before, s.operations[index]? = some before) ∨
      ∃ kind options endpoint target deadline stopped,
        operation = Operation.get kind options endpoint target deadline stopped := by
  by_cases hlt : index < s.operations.length
  · exact Or.inl ⟨_, List.getElem?_eq_getElem hlt⟩
  · right
    cases input with
    | get kind options endpoint target deadline stopped =>
      refine ⟨kind, options, endpoint, target, deadline, stopped, ?_⟩
      simp only [step, List.getElem?_append, if_neg hlt] at h
      exact (List.mem_singleton.mp (List.mem_of_getElem? h))
    | other call =>
      exact absurd (List.getElem?_eq_some_iff.mp h).1 hlt
    | event other event =>
      cases ho : s.operations[other]? with
      | none =>
        rw [step_event_none event ho] at h
        exact absurd (List.getElem?_eq_some_iff.mp h).1 hlt
      | some found =>
        rw [step_event event ho] at h
        have := (List.getElem?_eq_some_iff.mp h).1
        simp only [List.length_set] at this
        exact absurd this hlt

def Meets (Q : Operation → Event → Prop) (s : System) (input : Input) : Prop :=
  ∀ index event operation, input = .event index event → s.operations[index]? = some operation → Q operation event

variable {Q : Operation → Event → Prop}

theorem meets_event {event : Event} (h : ∀ operation, Q operation event) :
    Meets Q s (.event index event) := by
  intro other event' operation he ho
  cases he
  exact h operation

theorem meets_true (s : System) (inputs : List Input) : Runs.Along step (Meets fun _ _ => True) s inputs :=
  Runs.along_mono step (fun _ _ _ _ _ _ _ _ => trivial) (Runs.along_true step s inputs)

theorem run_operations {I : Operation → Prop}
    (hget : ∀ kind options endpoint target deadline stopped,
      I (.get kind options endpoint target deadline stopped))
    (hmove : ∀ {before event after}, I before → Q before event → Operation.Move before event after → I after)
    {limiter : RateLimiter} {inputs : List Input}
    (hq : Runs.Along step (Meets Q) ⟨limiter, []⟩ inputs)
    (h : (Runs.run step ⟨limiter, []⟩ inputs).operations[index]? = some operation) : I operation := by
  have hall : ∀ (index : ℕ) operation, (Runs.run step ⟨limiter, []⟩ inputs).operations[index]? = some operation →
      I operation := by
    refine Runs.run_invariant step (I := fun s => ∀ (index : ℕ) operation, s.operations[index]? = some operation →
      I operation) ?_ (by simp) hq
    intro s input hs hin index operation ho
    rcases step_origin input ho with ⟨before, hb⟩ | ⟨kind, options, endpoint, target, deadline, stopped, rfl⟩
    · obtain ⟨next, hn, hmoved⟩ := step_operation input hb
      obtain rfl : next = operation := Option.some.inj (hn.symm.trans ho)
      rcases hmoved with rfl | ⟨event, rfl, hm⟩
      · exact hs index next hb
      · exact hmove (hs index before hb) (hin index event before rfl hb) hm
    · exact hget kind options endpoint target deadline stopped
  exact hall index operation h

theorem run_done {D : Operation → Prop}
    (hmove : ∀ {before event after}, D before → Q before event → Operation.Move before event after →
      D after ∧ after.gets = before.gets ∧ after.reservations = before.reservations)
    {inputs : List Input} (hq : Runs.Along step (Meets Q) s inputs)
    (h : s.operations[index]? = some operation) (hd : D operation) :
    ∃ after, (Runs.run step s inputs).operations[index]? = some after ∧ after.gets = operation.gets ∧
      after.reservations = operation.reservations := by
  induction inputs generalizing s operation with
  | nil => exact ⟨operation, h, rfl, rfl⟩
  | cons input inputs ih =>
    obtain ⟨next, hn, hmoved⟩ := step_operation input h
    rcases hmoved with rfl | ⟨event, rfl, hm⟩
    · exact ih hq.2 hn hd
    · obtain ⟨hd', hgets, hreservations⟩ := hmove hd (hq.1 index event operation rfl h) hm
      obtain ⟨after, ha, hg, hr⟩ := ih hq.2 hn hd'
      exact ⟨after, ha, hg.trans hgets, hr.trans hreservations⟩

end System

end PredictFun.Rest
