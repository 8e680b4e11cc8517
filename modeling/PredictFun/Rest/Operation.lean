import PredictFun.Net.RateLimiter
import PredictFun.Trading.Operation

namespace PredictFun.Rest

open Base Net Trading

structure ClientOptions where
  environment : Environment
  maxGetRetries : ℕ := 2
  deriving DecidableEq

inductive Kind
  | publicRead
  | privateRead
  deriving DecidableEq

/-- A timer wait whose callback has not run. -/
structure Wait where
  expiry : ℚ
  reserveBudget : Bool
  -- when the timer was cancelled, or destroyed because another one took its place
  cancelled : Option ℚ := none
  deriving DecidableEq

structure Get where
  time : ℚ
  request : HttpRequest
  deriving DecidableEq

/-- A GET of a public (`RequestOperation`) or private (`Operation`) client, with what it has done so far.
A deadline of zero means none. -/
structure Operation where
  kind : Kind
  options : ClientOptions
  endpoint : Bytes
  target : Bytes
  -- an invalid target: there is only the dispatched call of the handler
  rejection : Option Error := none
  deadline : ℚ := 0
  queued : Bool := true
  stopRequested : Bool := false
  stopQueued : Bool := false
  handler : Bool := true
  attempt : ℕ := 0
  waits : List Wait := []
  reservations : List ℚ := []
  gets : List Get := []
  -- the transport's side: the requests it has completed, as often as it did
  completed : List ℕ := []
  delivered : List (Result HttpResponse) := []

/-- The callbacks of an operation, each of which runs by itself at one time.  A completion may come for every
request that was handed over, at any time and more than once; `asked` is the delay of its `Retry-After`
header in milliseconds, read against the clock. -/
inductive Event
  | begin (now : ℚ) (credentials : Credentials)
  | fire (wait : ℕ) (aborted : Bool) (now : ℚ) (credentials : Credentials)
  | complete (request : ℕ) (result : Result HttpResponse) (asked : Option ℤ) (now : ℚ)
  | requestStop
  | stopCallback (now : ℚ)

def retryAfter (asked : Option ℤ) (attempt : ℕ) : ℤ :=
  max 0 (min (asked.getD (100 * 2 ^ min attempt 6)) 60000)

def httpError (code : ErrorCode) (status : ℤ) (message : String) (retry : ℤ) : Error :=
  ⟨code, ascii message, [], status, retry.toNat⟩

def Wait.cancel (now : ℚ) (wait : Wait) : Wait :=
  match wait.cancelled with
  | none => { wait with cancelled := some now }
  | some _ => wait

def Wait.Due (wait : Wait) (aborted : Bool) (now : ℚ) : Prop :=
  if aborted then wait.cancelled ≠ none else wait.expiry ≤ now ∧ ∀ time ∈ wait.cancelled, wait.expiry ≤ time

instance (wait : Wait) (aborted : Bool) (now : ℚ) : Decidable (wait.Due aborted now) := by
  unfold Wait.Due
  infer_instance

namespace Operation

def past (time : ℚ) (s : Operation) : Prop := s.deadline ≠ 0 ∧ s.deadline ≤ time

instance (time : ℚ) (s : Operation) : Decidable (s.past time) := inferInstanceAs (Decidable (_ ∧ _))

-- the handler is moved out before it is called
def finish (result : Result HttpResponse) (s : Operation) : Operation :=
  if s.handler then { s with handler := false, delivered := s.delivered ++ [result] } else s

def cancelTimer (now : ℚ) (s : Operation) : Operation := { s with waits := s.waits.map (Wait.cancel now) }

def schedule (delay : ℤ) (reserveBudget : Bool) (now : ℚ) (s : Operation) : Operation :=
  let expiry := now + RateLimiter.seconds delay
  if s.past expiry then s.finish (fail .deadlineExceeded "retry would exceed request deadline" "")
  else
    -- the new timer takes the place of the old one, which is destroyed
    { s with waits := (s.cancelTimer now).waits ++ [{ expiry := expiry, reserveBudget := reserveBudget }] }

def request (apiKey : Bytes) (authorization : List (Bytes × Bytes)) (s : Operation) : HttpRequest where
  host := match s.options.environment with
    | .bnbMainnet => ascii "api.predict.fun"
    | .bnbTestnet => ascii "api-testnet.predict.fun"
  target := s.target
  useTls := true
  headers := (if apiKey = [] then [] else [(ascii "x-api-key", apiKey)]) ++ authorization
  body := []

def handOver (now : ℚ) (request : HttpRequest) (s : Operation) : Operation :=
  { s with gets := s.gets ++ [⟨now, request⟩] }

/-- `start` once the handler is known to be there, with the client's way of sending. -/
def startWith (send : Operation → Operation) (reserveBudget : Bool) (now : ℚ) (limiter : RateLimiter)
    (s : Operation) : RateLimiter × Operation :=
  if s.stopRequested then (limiter, s.finish (fail .cancelled "request cancelled" ""))
  else if s.past now then (limiter, s.finish (fail .deadlineExceeded "request deadline exceeded" ""))
  else if reserveBudget then
    let (wait, after) := limiter.reserve s.endpoint now
    let s := { s with reservations := s.reservations ++ [limiter.release s.endpoint now] }
    if 0 < wait then (after, s.schedule wait false now) else (after, send s)
  else (limiter, send s)

end Operation

namespace PublicRestClient

open Operation

def send (credentials : Credentials) (now : ℚ) (s : Operation) : Operation :=
  match credentials with
  | .failed => s.finish (fail .authenticationRequired "API key provider failed" "")
  | .given apiKey _ =>
    if s.options.environment = .bnbMainnet ∧ apiKey = [] then
      s.finish (fail .authenticationRequired "Predict.fun mainnet requires an API key" "")
    else s.handOver now (s.request apiKey [])

-- unlike the private client's, it does not ask whether the handler is still there
def start (reserveBudget : Bool) (now : ℚ) (credentials : Credentials) (limiter : RateLimiter) (s : Operation) :
    RateLimiter × Operation :=
  s.startWith (send credentials now) reserveBudget now limiter

def handle (result : Result HttpResponse) (asked : Option ℤ) (now : ℚ) (limiter : RateLimiter) (s : Operation) :
    RateLimiter × Operation :=
  match result with
  | .error error => (limiter, s.finish (.error error))
  | .ok response =>
    if 200 ≤ response.status ∧ response.status < 300 then (limiter, s.finish (.ok response))
    else if 300 ≤ response.status ∧ response.status < 400 then
      (limiter, s.finish (.error (httpError .httpRedirect response.status "HTTP redirect rejected" 0)))
    else if response.status = 401 ∨ response.status = 403 then
      (limiter, s.finish
        (.error (httpError .authenticationRequired response.status "Predict.fun authentication rejected" 0)))
    else if response.status = 429 then
      let delay := retryAfter asked s.attempt
      let limiter := limiter.penalize s.endpoint now delay false
      let next := { s with attempt := s.attempt + 1 }
      if s.attempt < s.options.maxGetRetries then (limiter, next.schedule delay false now)
      else (limiter, next.finish
        (.error (httpError .rateLimited response.status "Predict.fun rate limit exceeded" delay)))
    else if 500 ≤ response.status then
      let delay := retryAfter asked s.attempt
      let next := { s with attempt := s.attempt + 1 }
      if s.attempt < s.options.maxGetRetries then (limiter, next.schedule delay true now)
      else (limiter, next.finish
        (.error (httpError .httpServerError response.status "Predict.fun server error" delay)))
    else
      (limiter, s.finish (.error (httpError .httpClientError response.status "Predict.fun request rejected" 0)))

end PublicRestClient

namespace PrivateRestClient

open Operation

def send (credentials : Credentials) (now : ℚ) (s : Operation) : Operation :=
  match credentials with
  | .failed => s.finish (fail .authenticationRequired "credential provider failed" "")
  | .given apiKey jwt =>
    if s.options.environment = .bnbMainnet ∧ apiKey = [] then
      s.finish (fail .authenticationRequired "Predict.fun mainnet requires an API key" "")
    else if jwt = [] then
      s.finish (fail .authenticationRequired "Predict.fun private endpoint requires a JWT" "")
    else s.handOver now (s.request apiKey [(ascii "Authorization", ascii "Bearer " ++ jwt)])

def start (reserveBudget : Bool) (now : ℚ) (credentials : Credentials) (limiter : RateLimiter) (s : Operation) :
    RateLimiter × Operation :=
  if s.handler = false then (limiter, s)
  else s.startWith (send credentials now) reserveBudget now limiter

def handle (result : Result HttpResponse) (asked : Option ℤ) (now : ℚ) (limiter : RateLimiter) (s : Operation) :
    RateLimiter × Operation :=
  match result with
  | .error error => (limiter, s.finish (.error error))
  | .ok response =>
    if 200 ≤ response.status ∧ response.status < 300 then (limiter, s.finish (.ok response))
    else if 300 ≤ response.status ∧ response.status < 400 then
      (limiter, s.finish (.error (httpError .httpRedirect response.status "HTTP redirect rejected" 0)))
    else if response.status = 401 ∨ response.status = 403 then
      (limiter, s.finish
        (.error (httpError .authenticationRequired response.status "Predict.fun authentication rejected" 0)))
    else if response.status = 429 ∨ 500 ≤ response.status then
      let delay := retryAfter asked s.attempt
      let limiter := if response.status = 429 then limiter.penalize s.endpoint now delay false else limiter
      let next := { s with attempt := s.attempt + 1 }
      if s.attempt < s.options.maxGetRetries then (limiter, next.schedule delay (decide (500 ≤ response.status)) now)
      else (limiter, next.finish
        (.error (httpError (if response.status = 429 then .rateLimited else .httpServerError) response.status
          (if response.status = 429 then "Predict.fun rate limit exceeded" else "Predict.fun server error") delay)))
    else
      (limiter, s.finish (.error (httpError .httpClientError response.status "Predict.fun request rejected" 0)))

end PrivateRestClient

namespace Operation

def start (reserveBudget : Bool) (now : ℚ) (credentials : Credentials) (limiter : RateLimiter) (s : Operation) :
    RateLimiter × Operation :=
  match s.kind with
  | .publicRead => PublicRestClient.start reserveBudget now credentials limiter s
  | .privateRead => PrivateRestClient.start reserveBudget now credentials limiter s

def handle (result : Result HttpResponse) (asked : Option ℤ) (now : ℚ) (limiter : RateLimiter) (s : Operation) :
    RateLimiter × Operation :=
  match s.kind with
  | .publicRead => PublicRestClient.handle result asked now limiter s
  | .privateRead => PrivateRestClient.handle result asked now limiter s

def turn (event : Event) (limiter : RateLimiter) (s : Operation) : RateLimiter × Operation :=
  match event with
  | .begin now credentials =>
    if s.queued then
      let s := { s with queued := false }
      match s.rejection with
      | some error => (limiter, s.finish (.error error))
      | none => s.start true now credentials limiter
    else (limiter, s)
  | .fire index aborted now credentials =>
    match s.waits[index]? with
    | none => (limiter, s)
    | some wait =>
      if wait.Due aborted now then
        let s := { s with waits := s.waits.eraseIdx index }
        if aborted then (limiter, s.finish (fail .cancelled "request wait cancelled" ""))
        else s.start wait.reserveBudget now credentials limiter
      else (limiter, s)
  | .complete request result asked now =>
    if request < s.gets.length then
      { s with completed := s.completed ++ [request] }.handle result asked now limiter
    else (limiter, s)
  | .requestStop =>
    if s.stopRequested then (limiter, s)
    else (limiter, { s with stopRequested := true, stopQueued := s.rejection.isNone })
  | .stopCallback now =>
    if s.stopQueued then
      (limiter, ({ s with stopQueued := false }.cancelTimer now).finish (fail .cancelled "request cancelled" ""))
    else (limiter, s)

def get (kind : Kind) (options : ClientOptions) (endpoint : Bytes) (target : Result Bytes) (deadline : ℚ)
    (stopped : Bool) : Operation :=
  match target with
  | .ok target =>
    { kind, options, endpoint, target, deadline, stopRequested := stopped, stopQueued := stopped }
  | .error error =>
    { kind, options, endpoint, target := [], deadline, rejection := some error, stopRequested := stopped }

end Operation

structure System where
  limiter : RateLimiter
  operations : List Operation := []

inductive Input
  | get (kind : Kind) (options : ClientOptions) (endpoint : Bytes) (target : Result Bytes) (deadline : ℚ)
      (stopped : Bool)
  | event (index : ℕ) (event : Event)
  -- a call of another client that shares the limiter
  | other (call : RateLimiter.Call)

def System.step (s : System) : Input → System
  | .get kind options endpoint target deadline stopped =>
    { s with operations := s.operations ++ [.get kind options endpoint target deadline stopped] }
  | .event index event =>
    match s.operations[index]? with
    | none => s
    | some operation =>
      let (limiter, operation) := operation.turn event s.limiter
      { limiter := limiter, operations := s.operations.set index operation }
  | .other call => { s with limiter := s.limiter.step call }

end PredictFun.Rest
