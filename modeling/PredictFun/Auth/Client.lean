import PredictFun.Base.Interaction
import PredictFun.Codec.Auth
import PredictFun.Rest.Operation

namespace PredictFun.Auth

open Base Net Codec
open Trading (HttpRequest HttpResponse)
open Rest (httpError)

inductive HttpMethod
  | get
  | post
  deriving DecidableEq

structure ClientOptions where
  environment : Trading.Environment
  codecLimits : AuthCodecLimits := {}

/-- A deadline of zero means none; the stop token is asked for where the source looks at it. -/
structure RequestContext where
  deadline : ℚ := 0

inductive Query
  | stopRequested
  | now
  | apiKey
  -- the wait for the rate limiter
  | wait (delay : ℤ)
  | send (method : HttpMethod) (request : HttpRequest)
  | retryAfter (response : HttpResponse)
  | signerAddress
  | signMessage (message : Bytes)
  -- the call of the handler that the caller gave
  | handle (result : Result Bytes)
  deriving DecidableEq

/-- The signer calls its callback once, at once or later, or throws instead. -/
inductive Signing
  | called (signature : Result Bytes)
  | threw
  deriving DecidableEq

/-- What the others answer; the transport completes each request once.
A key provider that throws gives no key, and a client without a provider has the empty key. -/
abbrev Answer : Query → Type
  | .stopRequested => Bool
  | .now => ℚ
  | .apiKey => Option Bytes
  -- whether the timer was cancelled
  | .wait _ => Bool
  | .send _ _ => Result HttpResponse
  -- the delay of the header in milliseconds, read against the clock
  | .retryAfter _ => Option ℤ
  | .signerAddress => EvmAddress
  | .signMessage _ => Signing
  | .handle _ => Unit

instance : (query : Query) → DecidableEq (Answer query)
  | .stopRequested | .wait _ => inferInstanceAs (DecidableEq Bool)
  | .now => inferInstanceAs (DecidableEq ℚ)
  | .apiKey => inferInstanceAs (DecidableEq (Option Bytes))
  | .send _ _ => inferInstanceAs (DecidableEq (Result HttpResponse))
  | .retryAfter _ => inferInstanceAs (DecidableEq (Option ℤ))
  | .signerAddress => inferInstanceAs (DecidableEq EvmAddress)
  | .signMessage _ => inferInstanceAs (DecidableEq Signing)
  | .handle _ => inferInstanceAs (DecidableEq Unit)

inductive Ending
  | returned
  | escaped
  deriving DecidableEq

abbrev Callbacks := Program RateLimiter Answer Ending

/-- A `std::function` object: it holds the caller's handler until it is moved from.  An empty one throws when it is called. -/
inductive Handler
  | held
  | movedFrom
  deriving DecidableEq

def Handler.call (handler : Handler) (result : Result Bytes) : Callbacks :=
  match handler with
  | .held => .ask (.handle result) (fun _ => .done .returned)
  | .movedFrom => .done .escaped

def RequestContext.past (context : RequestContext) (time : ℚ) : Prop := context.deadline ≠ 0 ∧ context.deadline ≤ time

instance (context : RequestContext) (time : ℚ) : Decidable (context.past time) := inferInstanceAs (Decidable (_ ∧ _))

def authMessageTarget : Bytes := ascii "/v1/auth/message"

def authExchangeTarget : Bytes := ascii "/v1/auth"

structure AuthClient where
  options : ClientOptions
  json : AuthJson

namespace AuthClient

variable (client : AuthClient)

def request (target body key : Bytes) : HttpRequest where
  host := match client.options.environment with
    | .bnbMainnet => ascii "api.predict.fun"
    | .bnbTestnet => ascii "api-testnet.predict.fun"
  target := target
  useTls := true
  headers := if key = [] then [] else [(ascii "x-api-key", key)]
  body := body

def completed (endpoint : Bytes) (handler : Result HttpResponse → Callbacks) (result : Result HttpResponse) : Callbacks :=
  match result with
  | .error error => handler (.error error)
  | .ok response =>
    let status := response.status
    if 200 ≤ status ∧ status < 300 then handler (.ok response)
    else if 300 ≤ status ∧ status < 400 then
      handler (.error (httpError .httpRedirect status "HTTP redirect rejected" 0))
    else if status = 401 ∨ status = 403 then
      handler (.error (httpError .authenticationRequired status "Predict.fun authentication rejected" 0))
    else if status = 429 then
      .ask (.retryAfter response) fun asked =>
        let retry : ℤ := max 0 (min (asked.getD 500) 60000)
        .ask .now fun now =>
          .access (fun limiter => limiter.penalize endpoint now retry false) fun _ =>
            handler (.error (httpError .rateLimited status "Predict.fun rate limit exceeded" retry))
    else if 500 ≤ status then
      handler (.error (httpError .httpServerError status "Predict.fun server error" 0))
    else handler (.error (httpError .httpClientError status "Predict.fun request rejected" 0))

def submit (method : HttpMethod) (target body : Bytes) (handler : Result HttpResponse → Callbacks) : Callbacks :=
  .ask .apiKey fun key =>
    match key with
    | none => handler (fail .authenticationRequired "API key provider failed" "")
    | some key =>
      if client.options.environment = .bnbMainnet ∧ key = [] then
        handler (fail .authenticationRequired "Predict.fun mainnet requires an API key" "")
      else .ask (.send method (client.request target body key)) (completed target handler)

def send (method : HttpMethod) (target body : Bytes) (context : RequestContext)
    (handler : Result HttpResponse → Callbacks) : Callbacks :=
  .ask .stopRequested fun stopped =>
    if stopped then handler (fail .cancelled "request cancelled" "")
    else if context.deadline = 0 then client.submit method target body handler
    else
      .ask .now fun now =>
        if context.deadline ≤ now then handler (fail .deadlineExceeded "request deadline exceeded" "")
        else client.submit method target body handler

def reserveAndSend (method : HttpMethod) (target body : Bytes) (context : RequestContext)
    (handler : Result HttpResponse → Callbacks) : Callbacks :=
  .ask .stopRequested fun stopped =>
    if stopped then handler (fail .cancelled "request cancelled" "")
    else
      .ask .now fun now =>
        if context.past now then handler (fail .deadlineExceeded "request deadline exceeded" "")
        else
          .access (fun limiter => (limiter.reserve target now).2) fun limiter =>
            let wait := (limiter.reserve target now).1
            if wait = 0 then client.send method target body context handler
            else if context.past (now + RateLimiter.seconds wait) then
              handler (fail .deadlineExceeded "rate limit wait exceeds request deadline" "")
            else
              .ask (.wait wait) fun aborted =>
                if aborted then handler (fail .cancelled "request wait cancelled" "")
                else client.send method target body context handler

def asyncGetMessage (context : RequestContext) (handler : Result Bytes → Callbacks) : Callbacks :=
  client.reserveAndSend .get authMessageTarget [] context fun raw =>
    match raw with
    | .error error => handler (.error error)
    | .ok response => handler (decodeAuthMessageResponse client.json response.body client.options.codecLimits)

def signed (context : RequestContext) (challenge : Bytes) (handler : Handler) (signature : Result Bytes) : Callbacks :=
  match signature with
  | .error error => handler.call (.error error)
  | .ok signature =>
    .ask .stopRequested fun stopped =>
      if stopped then handler.call (fail .cancelled "authentication cancelled" "")
      else
        .ask .signerAddress fun address =>
          match encodeAuthProof client.json ⟨address, signature, challenge⟩ client.options.codecLimits with
          | .error error => handler.call (.error error)
          | .ok body =>
            client.reserveAndSend .post authExchangeTarget body context fun raw =>
              match raw with
              | .error error => handler.call (.error error)
              | .ok response =>
                handler.call (decodeAuthTokenResponse client.json response.body client.options.codecLimits)

def challenged (context : RequestContext) (handler : Handler) (message : Result Bytes) : Callbacks :=
  match message with
  | .error error => handler.call (.error error)
  | .ok challenge =>
    .ask .stopRequested fun stopped =>
      if stopped then handler.call (fail .cancelled "authentication cancelled" "")
      else
        .ask (.signMessage challenge) fun signing =>
          match signing with
          | .called signature => client.signed context challenge handler signature
          -- the arguments of the call that threw had taken the handler
          | .threw => Handler.movedFrom.call (fail .authenticationRequired "message signer failed" "signer")

def asyncAuthenticate (signer : Bool) (context : RequestContext) (handler : Handler) : Callbacks :=
  if signer = false then handler.call (fail .invalidArgument "message signer is required" "signer")
  else client.asyncGetMessage context (client.challenged context handler)

end AuthClient

end PredictFun.Auth
