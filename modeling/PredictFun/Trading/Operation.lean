import PredictFun.Base.Runs
import PredictFun.Types.Orders

namespace PredictFun.Trading

open Base

inductive Environment
  | bnbMainnet
  | bnbTestnet
  deriving DecidableEq

structure HttpRequest where
  host : Bytes
  target : Bytes
  useTls : Bool
  headers : List (Bytes × Bytes)
  body : Bytes
  deriving DecidableEq

structure HttpResponse where
  status : ℤ
  body : Bytes
  headers : List (Bytes × Bytes)
  deriving DecidableEq

/-- What the credential providers of the host do; a host without an API key provider gives an empty key. -/
inductive Credentials
  | failed
  | given (apiKey jwt : Bytes)
  deriving DecidableEq

structure Mutation (ρ : Type) where
  environment : Environment
  target : Bytes
  body : Bytes
  reconciliationKey : Bytes
  deadline : Option ℕ
  decode : Bytes → Result ρ
  -- the `Retry-After` header, read against the clock
  retryAfter : HttpResponse → ℕ

structure Operation (ρ : Type) where
  started : Bool
  -- the rate-limit timer is set and its callback has not run
  waiting : Bool
  stopRequested : Bool
  handler : Bool
  dispatched : Bool
  posted : List HttpRequest
  delivered : List (Result (MutationOutcome ρ))

/-- The callbacks, each of which runs by itself. The host may request a stop at any time; its callback comes later. -/
inductive Event
  | start (now wait : ℕ) (credentials : Credentials)
  | timer (aborted : Bool) (credentials : Credentials)
  | requestStop
  | stopCallback
  | completion (result : Result HttpResponse)

variable {ρ : Type}

def httpError (code : ErrorCode) (status : ℤ) (message : String) (retry : ℕ) : Error :=
  ⟨code, ascii message, [], status, retry⟩

def ambiguous (error : Error) (key : Bytes) : MutationOutcome ρ :=
  ⟨.ambiguous, none, some { error with code := .ambiguousSubmission }, key⟩

def expired (deadline : Option ℕ) (now : ℕ) : Bool :=
  match deadline with
  | none => false
  | some time => decide (time ≤ now)

namespace Mutation

variable (m : Mutation ρ)

def request (apiKey jwt : Bytes) : HttpRequest where
  host := match m.environment with
    | .bnbMainnet => ascii "api.predict.fun"
    | .bnbTestnet => ascii "api-testnet.predict.fun"
  target := m.target
  useTls := true
  headers := (if apiKey = [] then [] else [(ascii "x-api-key", apiKey)]) ++ [(ascii "Authorization", ascii "Bearer " ++ jwt)]
  body := m.body

end Mutation

namespace Operation

def initial : Operation ρ := ⟨false, false, false, true, false, [], []⟩

-- the handler is moved out before it is called
def finish (result : Result (MutationOutcome ρ)) (s : Operation ρ) : Operation ρ :=
  if s.handler then { s with handler := false, delivered := s.delivered ++ [result] } else s

variable (m : Mutation ρ)

def send (credentials : Credentials) (s : Operation ρ) : Operation ρ :=
  if s.handler = false then s
  else if s.stopRequested then s.finish (fail .cancelled "request cancelled" "")
  else
    match credentials with
    | .failed => s.finish (fail .authenticationRequired "credential provider failed" "")
    | .given apiKey jwt =>
      if m.environment = .bnbMainnet ∧ apiKey = [] then
        s.finish (fail .authenticationRequired "Predict.fun mainnet requires an API key" "")
      else if jwt = [] then s.finish (fail .authenticationRequired "Predict.fun trading endpoint requires a JWT" "")
      else { s with dispatched := true, posted := s.posted ++ [m.request apiKey jwt] }

def start (now wait : ℕ) (credentials : Credentials) (s : Operation ρ) : Operation ρ :=
  if s.handler = false then s
  else if s.stopRequested then s.finish (fail .cancelled "request cancelled" "")
  else if expired m.deadline now then s.finish (fail .deadlineExceeded "request deadline exceeded" "")
  else if wait = 0 then s.send m credentials
  else if expired m.deadline (now + wait) then
    s.finish (fail .deadlineExceeded "rate limit wait exceeds request deadline" "")
  else { s with waiting := true }

def answer : Result HttpResponse → Result (MutationOutcome ρ)
  | .error error => .ok (ambiguous error m.reconciliationKey)
  | .ok response =>
    if 200 ≤ response.status ∧ response.status < 300 then
      match m.decode response.body with
      | .error error => .ok (ambiguous error m.reconciliationKey)
      | .ok receipt => .ok ⟨.acknowledged, some receipt, none, m.reconciliationKey⟩
    else if 300 ≤ response.status ∧ response.status < 400 then
      .error (httpError .httpRedirect response.status "HTTP redirect rejected" 0)
    else if response.status = 401 ∨ response.status = 403 then
      .error (httpError .authenticationRequired response.status "Predict.fun authentication rejected" 0)
    else if response.status = 429 then
      .ok (ambiguous (httpError .rateLimited response.status "Predict.fun rate limit exceeded" (m.retryAfter response))
        m.reconciliationKey)
    else if response.status ≥ 500 then
      .ok (ambiguous (httpError .httpServerError response.status "Predict.fun server error" 0) m.reconciliationKey)
    else
      .error (httpError (if response.status = 410 then .venueRejected else .httpClientError) response.status
        "Predict.fun mutation rejected" 0)

def handle (result : Result HttpResponse) (s : Operation ρ) : Operation ρ := s.finish (answer m result)

def cancelled (s : Operation ρ) : Operation ρ :=
  if s.dispatched then
    s.finish (.ok (ambiguous ⟨.cancelled, ascii "request cancelled after mutation dispatch", [], 0, 0⟩ m.reconciliationKey))
  else s.finish (fail .cancelled "request cancelled" "")

/-- A callback runs only once it has been queued: one start, one callback of a timer that was set, stop callbacks after a
stop was requested and completions after a post. -/
def step (s : Operation ρ) : Event → Operation ρ
  | .start now wait credentials => if s.started then s else { s with started := true }.start m now wait credentials
  | .timer aborted credentials =>
    if s.waiting = false then s
    else if aborted then { s with waiting := false }.finish (fail .cancelled "request wait cancelled" "")
    else { s with waiting := false }.send m credentials
  | .requestStop => { s with stopRequested := true }
  | .stopCallback => if s.stopRequested then s.cancelled m else s
  | .completion result => if s.dispatched then s.handle m result else s

def Refusal (status : ℤ) : Prop := ¬(200 ≤ status ∧ status < 300) ∧ status ≠ 429 ∧ status < 500

def Unclear : Result HttpResponse → Prop
  | .error _ => True
  | .ok response =>
    ((200 ≤ response.status ∧ response.status < 300) ∧ ∃ error, m.decode response.body = .error error) ∨
      response.status = 429 ∨ 500 ≤ response.status

theorem answer_error {result : Result HttpResponse} {error : Error} (h : answer m result = .error error) :
    ∃ response, result = .ok response ∧ Refusal response.status := by
  cases result with
  | error failure => cases h
  | ok response =>
    refine ⟨response, rfl, ?_⟩
    unfold answer at h
    dsimp only at h
    split at h
    · split at h <;> cases h
    next h2 =>
      by_cases h429 : response.status = 429
      · rw [if_neg (by omega), if_neg (by omega), if_pos h429] at h
        cases h
      · by_cases h500 : response.status ≥ 500
        · rw [if_neg (by omega), if_neg (by omega), if_neg h429, if_pos h500] at h
          cases h
        · exact ⟨h2, h429, by omega⟩

theorem answer_unclear {result : Result HttpResponse} (h : Unclear m result) :
    ∃ error, answer m result = .ok (ambiguous error m.reconciliationKey) := by
  cases result with
  | error failure => exact ⟨failure, rfl⟩
  | ok response =>
    unfold answer
    dsimp only
    obtain ⟨h2, error, he⟩ | h429 | h500 := h
    · rw [if_pos h2, he]
      exact ⟨error, rfl⟩
    · rw [if_neg (by omega), if_neg (by omega), if_neg (by omega), if_pos h429]
      exact ⟨_, rfl⟩
    · rw [if_neg (by omega), if_neg (by omega), if_neg (by omega), if_neg (by omega), if_pos h500]
      exact ⟨_, rfl⟩

structure Valid (s : Operation ρ) : Prop where
  posted : s.posted.length = if s.dispatched then 1 else 0
  delivered : s.delivered.length = if s.handler then 0 else 1
  set : s.waiting = true → s.started = true
  sent : s.dispatched = true → s.started = true ∧ s.waiting = false

theorem valid_initial : (initial : Operation ρ).Valid := ⟨rfl, rfl, (fun h => by cases h), (fun h => by cases h)⟩

def Reports (s : Operation ρ) (event : Event) (result : Result (MutationOutcome ρ)) : Prop :=
  (s.dispatched = false ∧ ∃ error, result = .error error) ∨
    (s.dispatched = true ∧ event = .stopCallback ∧ ∃ error, result = .ok (ambiguous error m.reconciliationKey)) ∨
    (s.dispatched = true ∧ ∃ completion, event = .completion completion ∧ result = answer m completion)

inductive Move (s : Operation ρ) (event : Event) (s' : Operation ρ) : Prop
  | quiet (posted : s'.posted = s.posted) (dispatched : s'.dispatched = s.dispatched) (handler : s'.handler = s.handler)
      (delivered : s'.delivered = s.delivered)
  | report (result : Result (MutationOutcome ρ)) (open_handler : s.handler = true) (reports : Reports m s event result)
      (posted : s'.posted = s.posted) (dispatched : s'.dispatched = s.dispatched) (handler : s'.handler = false)
      (delivered : s'.delivered = s.delivered ++ [result])
  | post (request : HttpRequest) (open_handler : s.handler = true) (unsent : s.dispatched = false)
      (posted : s'.posted = s.posted ++ [request]) (dispatched : s'.dispatched = true) (handler : s'.handler = true)
      (delivered : s'.delivered = s.delivered)

section

variable (s : Operation ρ) (result : Result (MutationOutcome ρ)) (credentials : Credentials)

@[simp] theorem finish_started : (s.finish result).started = s.started := by
  unfold finish
  split_ifs <;> rfl

@[simp] theorem finish_waiting : (s.finish result).waiting = s.waiting := by
  unfold finish
  split_ifs <;> rfl

@[simp] theorem finish_dispatched : (s.finish result).dispatched = s.dispatched := by
  unfold finish
  split_ifs <;> rfl

@[simp] theorem send_started : (s.send m credentials).started = s.started := by
  unfold send
  split_ifs
  · rfl
  · simp
  · cases credentials with
    | failed => simp
    | given apiKey jwt =>
      dsimp only
      split_ifs <;> simp

@[simp] theorem send_waiting : (s.send m credentials).waiting = s.waiting := by
  unfold send
  split_ifs
  · rfl
  · simp
  · cases credentials with
    | failed => simp
    | given apiKey jwt =>
      dsimp only
      split_ifs <;> simp

@[simp] theorem start_started (now wait : ℕ) : (s.start m now wait credentials).started = s.started := by
  unfold start
  split_ifs <;> simp

theorem start_sent (now wait : ℕ) (hw : s.waiting = false) (hd : s.dispatched = false)
    (h : (s.start m now wait credentials).dispatched = true) : (s.start m now wait credentials).waiting = false := by
  unfold start at h ⊢
  split_ifs at h ⊢ <;> simp_all

end

variable {m} {s s₀ : Operation ρ} {event : Event}

def Alike (s s₀ : Operation ρ) : Prop :=
  s₀.posted = s.posted ∧ s₀.dispatched = s.dispatched ∧ s₀.handler = s.handler ∧ s₀.delivered = s.delivered

theorem Move.of_alike (h : Alike s s₀) : Move m s event s₀ := .quiet h.1 h.2.1 h.2.2.1 h.2.2.2

theorem finish_move {result : Result (MutationOutcome ρ)} (h : Alike s s₀) (hr : Reports m s event result) :
    Move m s event (s₀.finish result) := by
  unfold finish
  split_ifs with hh
  · exact .report result (h.2.2.1 ▸ hh) hr h.1 h.2.1 rfl (congrArg (· ++ [result]) h.2.2.2)
  · exact .of_alike h

theorem finish_error_move {error : Error} (h : Alike s s₀) (hd : s.dispatched = false) :
    Move m s event (s₀.finish (.error error)) := finish_move h (Or.inl ⟨hd, error, rfl⟩)

theorem send_move {credentials : Credentials} (h : Alike s s₀) (hd : s.dispatched = false) :
    Move m s event (s₀.send m credentials) := by
  unfold send
  split_ifs with hh
  · exact .of_alike h
  · exact finish_error_move h hd
  · cases credentials with
    | failed => exact finish_error_move h hd
    | given apiKey jwt =>
      dsimp only
      split_ifs
      · exact finish_error_move h hd
      · exact finish_error_move h hd
      · refine .post (m.request apiKey jwt) ?_ hd ?_ rfl ?_ h.2.2.2
        · rw [← h.2.2.1]
          simpa using hh
        · rw [← h.1]
        · simpa using hh

theorem start_move {now wait : ℕ} {credentials : Credentials} (h : Alike s s₀) (hd : s.dispatched = false) :
    Move m s event (s₀.start m now wait credentials) := by
  unfold start
  split_ifs
  · exact .of_alike h
  · exact finish_error_move h hd
  · exact finish_error_move h hd
  · exact send_move h hd
  · exact finish_error_move h hd
  · exact .of_alike h

theorem step_move (hv : s.Valid) (event : Event) : Move m s event (s.step m event) := by
  have hsent : s.started = false ∨ s.waiting = true → s.dispatched = false := by
    rintro h
    by_contra hd
    obtain ⟨hs, hw⟩ := hv.sent (by simpa using hd)
    rcases h with h | h
    · rw [h] at hs
      cases hs
    · rw [h] at hw
      cases hw
  cases event with
  | start now wait credentials =>
    rw [step]
    split_ifs with hs
    · exact .of_alike ⟨rfl, rfl, rfl, rfl⟩
    · exact start_move ⟨rfl, rfl, rfl, rfl⟩ (hsent (Or.inl (by simpa using hs)))
  | timer aborted credentials =>
    rw [step]
    split_ifs with hw ha
    · exact .of_alike ⟨rfl, rfl, rfl, rfl⟩
    · exact finish_error_move ⟨rfl, rfl, rfl, rfl⟩ (hsent (Or.inr (by simpa using hw)))
    · exact send_move ⟨rfl, rfl, rfl, rfl⟩ (hsent (Or.inr (by simpa using hw)))
  | requestStop => exact .of_alike ⟨rfl, rfl, rfl, rfl⟩
  | stopCallback =>
    rw [step, cancelled]
    split_ifs with hs hd
    · exact finish_move ⟨rfl, rfl, rfl, rfl⟩ (Or.inr (Or.inl ⟨hd, rfl, _, rfl⟩))
    · exact finish_error_move ⟨rfl, rfl, rfl, rfl⟩ (by simpa using hd)
    · exact .of_alike ⟨rfl, rfl, rfl, rfl⟩
  | completion result =>
    rw [step]
    split_ifs with hd
    · exact finish_move ⟨rfl, rfl, rfl, rfl⟩ (Or.inr (Or.inr ⟨hd, result, rfl, rfl⟩))
    · exact .of_alike ⟨rfl, rfl, rfl, rfl⟩

theorem step_valid (hv : s.Valid) (event : Event) : (s.step m event).Valid := by
  have hcount : (s.step m event).posted.length = (if (s.step m event).dispatched then 1 else 0) ∧
      (s.step m event).delivered.length = if (s.step m event).handler then 0 else 1 := by
    cases step_move hv event with
    | quiet hp hd hh hl => exact ⟨by rw [hp, hd, hv.posted], by rw [hl, hh, hv.delivered]⟩
    | report result ho hr hp hd hh hl =>
      refine ⟨by rw [hp, hd, hv.posted], ?_⟩
      rw [hl, hh, List.length_append, hv.delivered, ho]
      rfl
    | post request ho hu hp hd hh hl =>
      refine ⟨?_, by rw [hl, hh, hv.delivered, ho]⟩
      rw [hp, hd, List.length_append, hv.posted, hu]
      rfl
  have hflags : ((s.step m event).waiting = true → (s.step m event).started = true) ∧
      ((s.step m event).dispatched = true → (s.step m event).started = true ∧ (s.step m event).waiting = false) := by
    cases event with
    | start now wait credentials =>
      rw [step]
      split_ifs with hs
      · exact ⟨hv.set, hv.sent⟩
      · have hw : s.waiting = false := by
          by_contra h
          exact hs (hv.set (by simpa using h))
        have hd : s.dispatched = false := by
          by_contra h
          exact hs (hv.sent (by simpa using h)).1
        exact ⟨fun _ => by simp, fun h => ⟨by simp, start_sent m _ credentials now wait hw hd h⟩⟩
    | timer aborted credentials =>
      rw [step]
      split_ifs with hw ha
      · exact ⟨hv.set, hv.sent⟩
      · have hs := hv.set (by simpa using hw)
        simp [hs]
      · have hs := hv.set (by simpa using hw)
        simp [hs]
    | requestStop => exact ⟨hv.set, hv.sent⟩
    | stopCallback =>
      rw [step, cancelled]
      split_ifs
      · simpa using ⟨hv.set, hv.sent⟩
      · simpa using ⟨hv.set, hv.sent⟩
      · exact ⟨hv.set, hv.sent⟩
    | completion result =>
      rw [step, handle]
      split_ifs
      · simpa using ⟨hv.set, hv.sent⟩
      · exact ⟨hv.set, hv.sent⟩
  exact ⟨hcount.1, hcount.2, hflags.1, hflags.2⟩

theorem run_valid (m : Mutation ρ) (events : List Event) : (Runs.run (step m) initial events).Valid :=
  Runs.run_invariant (step m) (Q := fun _ _ => True) (I := Valid) (fun _ event h _ => step_valid h event) valid_initial
    ((Runs.along_iff _ _ _ _).mpr (fun _ _ _ => trivial))

theorem run_closed {events : List Event} (hv : s.Valid) (hc : s.handler = false) :
    (Runs.run (step m) s events).posted = s.posted ∧ (Runs.run (step m) s events).handler = false := by
  induction events generalizing s with
  | nil => exact ⟨rfl, hc⟩
  | cons event events ih =>
    rw [Runs.run_cons]
    cases step_move (m := m) hv event with
    | quiet hp _ hh _ =>
      obtain ⟨h₁, h₂⟩ := ih (step_valid hv event) (hh.trans hc)
      exact ⟨h₁.trans hp, h₂⟩
    | report result ho =>
      rw [hc] at ho
      cases ho
    | post request ho =>
      rw [hc] at ho
      cases ho

theorem Valid.posted_nil (hv : s.Valid) (hd : s.dispatched = false) : s.posted = [] := by
  have h := hv.posted
  rw [hd] at h
  exact List.length_eq_zero_iff.mp h

theorem Valid.delivered_nil (hv : s.Valid) (hh : s.handler = true) : s.delivered = [] := by
  have h := hv.delivered
  rw [hh] at h
  exact List.length_eq_zero_iff.mp h

variable (m) in
theorem delivered_origin (events : List Event) {result : Result (MutationOutcome ρ)}
    (h : result ∈ (Runs.run (step m) initial events).delivered) :
    ((Runs.run (step m) initial events).posted = [] ∧ ∃ error, result = .error error) ∨
      (∃ error, result = .ok (ambiguous error m.reconciliationKey)) ∨
      ∃ completion, .completion completion ∈ events ∧ result = answer m completion := by
  induction events using List.reverseRecOn with
  | nil => cases h
  | append_singleton events event ih =>
    have hv := run_valid m events
    rw [Runs.run_append, Runs.run_cons, Runs.run_nil] at h ⊢
    cases step_move (m := m) hv event with
    | quiet hp _ _ hl =>
      rw [hl] at h
      rw [hp]
      exact (ih h).imp_right (Or.imp_right (fun ⟨completion, hc, he⟩ => ⟨completion, List.mem_append_left _ hc, he⟩))
    | post _ ho _ _ _ _ hl =>
      rw [hl, hv.delivered_nil ho] at h
      cases h
    | report result ho hr hp _ _ hl =>
      rw [hl, hv.delivered_nil ho, List.nil_append, List.mem_singleton] at h
      subst h
      obtain ⟨hd, he⟩ | ⟨-, -, he⟩ | ⟨-, completion, rfl, he⟩ := hr
      · exact .inl ⟨by rw [hp, hv.posted_nil hd], he⟩
      · exact .inr (.inl he)
      · exact .inr (.inr ⟨completion, by simp, he⟩)

variable (m) in
theorem posted_nil_or_refused (events : List Event) {error : Error}
    (h : .error error ∈ (Runs.run (step m) initial events).delivered) :
    (Runs.run (step m) initial events).posted = [] ∨
      ∃ response, .completion (.ok response) ∈ events ∧ Refusal response.status := by
  obtain ⟨hp, -⟩ | ⟨_, he⟩ | ⟨completion, hc, he⟩ := delivered_origin m events h
  · exact .inl hp
  · cases he
  · obtain ⟨response, rfl, hr⟩ := answer_error m he.symm
    exact .inr ⟨response, hc, hr⟩

/-- A definite error means that nothing was posted and nothing will be, or that the venue has refused. -/
def Definite (m : Mutation ρ) (events : List Event) : Prop :=
  (∀ more, (Runs.run (step m) initial (events ++ more)).posted = []) ∨
    ∃ response, .completion (.ok response) ∈ events ∧ Refusal response.status

theorem definite_of_error (m : Mutation ρ) (events : List Event) {error : Error}
    (h : .error error ∈ (Runs.run (step m) initial events).delivered) : Definite m events := by
  refine (posted_nil_or_refused m events h).imp_left (fun hp more => ?_)
  have hv := run_valid m events
  have hclosed : (Runs.run (step m) initial events).handler = false := by
    by_contra hh
    rw [hv.delivered_nil (by simpa using hh)] at h
    cases h
  rw [Runs.run_append, (run_closed hv hclosed).1, hp]

theorem step_unclear (hh : s.handler = true) (hd : s.dispatched = true)
    (h : (event = .stopCallback ∧ s.stopRequested = true) ∨ ∃ result, event = .completion result ∧ Unclear m result) :
    ∃ error, (s.step m event).delivered = s.delivered ++ [.ok (ambiguous error m.reconciliationKey)] := by
  obtain ⟨rfl, hs⟩ | ⟨result, rfl, hu⟩ := h
  · refine ⟨⟨.cancelled, ascii "request cancelled after mutation dispatch", [], 0, 0⟩, ?_⟩
    rw [step, if_pos hs, cancelled, if_pos hd, finish, if_pos hh]
  · obtain ⟨error, ha⟩ := answer_unclear m hu
    refine ⟨error, ?_⟩
    rw [step, if_pos hd, handle, ha, finish, if_pos hh]

end Operation

end PredictFun.Trading
