import PredictFun.Chain.Rpc
import PredictFun.Net.Channel

namespace PredictFun.Net

open Base Chain
open Trading (HttpResponse Operation)

inductive HttpMethod
  | get
  | post
  deriving DecidableEq

structure HttpRequest extends Trading.HttpRequest where
  method : HttpMethod
  port : Bytes

structure TransportLimits where
  maxRequestBodyBytes : ℕ
  defaultTimeout : ℕ

def hasLineBreak (text : Bytes) : Bool := text.any (fun c => c = 13 ∨ c = 10)

def checkRequest (limits : TransportLimits) (request : HttpRequest) : Result Unit :=
  if request.host = [] ∨ request.port = [] ∨ request.target.head? ≠ some (byte '/') then
    fail .invalidArgument "HTTP host, port and absolute target are required" "request"
  else if request.body.length > limits.maxRequestBodyBytes then
    fail .bodyTooLarge "HTTP request body exceeds configured limit" "request.body"
  else if request.method = .get ∧ request.body ≠ [] then
    fail .invalidArgument "GET requests cannot contain a body" "request.body"
  else if request.headers.any (fun header => header.1 = [] ∨ hasLineBreak header.1 ∨ hasLineBreak header.2) then
    fail .invalidArgument "invalid HTTP header" "request.headers"
  else if ["x-api-key=", "api_key=", "apikey="].any (fun mark => ascii mark <:+: request.target.map lower) then
    fail .invalidArgument "credentials are forbidden in HTTP targets" "request.target"
  else .ok ()

/-- The asynchronous operations of a session. -/
inductive Stage
  | resolve
  | connect
  | handshake
  | write
  | read
  deriving DecidableEq

namespace Stage

def failed : Stage → ErrorCode × String
  | .resolve => (.dnsFailure, "resolve")
  | .connect => (.connectFailure, "connect")
  | .handshake => (.tlsFailure, "TLS handshake")
  | .write => (.writeFailure, "write")
  | .read => (.readFailure, "read")

def next (useTls : Bool) : Stage → Stage
  | .resolve => .connect
  | .connect => if useTls then .handshake else .write
  | .handshake => .write
  | .write | .read => .read

def writes : Stage → ℕ
  | .write | .read => 1
  | _ => 0

theorem writes_next (useTls : Bool) (stage : Stage) :
    stage.writes + (if stage.next useTls = .write then 1 else 0) = (stage.next useTls).writes := by
  cases useTls <;> cases stage <;> rfl

end Stage

inductive Received
  | response (value : HttpResponse)
  | bodyLimit
  | truncated

def Received.result : Received → Result HttpResponse
  | .response value => .ok value
  | .bodyLimit => fail .bodyTooLarge "HTTP body exceeds configured limit" ""
  | .truncated => fail .bodyTruncated "HTTP response body was truncated" ""

/-- An operation of a closed socket completes like any other: with a failure, or with what it had done before. -/
inductive HttpEvent
  | start (now later : ℕ) (hostnameSet : Bool)
  | requestStop
  | stopCallback
  | deadline
  | completed
  -- none when the error is the timeout of the stream
  | failed (failure : Option StreamFailure)
  | received (received : Received)

structure HttpSession where
  started : Bool := false
  stopRequested : Bool := false
  cancelled : Bool := false
  deadlineFired : Bool := false
  finished : Bool := false
  -- the operation in flight, and how often the request was handed to the stream
  pending : Option Stage := none
  writes : ℕ := 0
  answers : List (Result HttpResponse) := []

namespace HttpSession

def finish (result : Result HttpResponse) (s : HttpSession) : HttpSession :=
  if s.finished then s else { s with finished := true, pending := none, answers := s.answers ++ [result] }

def begin (stage : Stage) (s : HttpSession) : HttpSession :=
  { s with pending := some stage, writes := s.writes + if stage = .write then 1 else 0 }

def error (s : HttpSession) (stage : Stage) (failure : Option StreamFailure) : Error :=
  if s.cancelled ∨ s.stopRequested then ⟨.cancelled, ascii "request cancelled", [], 0, 0⟩
  else
    match s.deadlineFired, failure with
    | false, some failure => channelError stage.failed.1 (ascii stage.failed.2) failure
    | _, _ => ⟨.deadlineExceeded, ascii "request deadline exceeded", [], 0, 0⟩

variable (limits : TransportLimits) (request : HttpRequest) (deadline : Option ℕ)

/-- The clock is read for a deadline that is not set, and again for the check. -/
def start (now later : ℕ) (hostnameSet : Bool) (s : HttpSession) : HttpSession :=
  if s.stopRequested then s.finish (fail .cancelled "request cancelled" "")
  else
    match checkRequest limits request with
    | .error error => s.finish (.error error)
    | .ok _ =>
      if deadline.getD (now + limits.defaultTimeout) ≤ later then
        s.finish (fail .deadlineExceeded "request deadline already expired" "")
      else if request.useTls = true ∧ hostnameSet = false then
        s.finish (fail .tlsFailure "TLS hostname verification setup failed" "")
      else s.begin .resolve

def step (s : HttpSession) : HttpEvent → HttpSession
  | .start now later hostnameSet =>
    if s.started then s else { s with started := true }.start limits request deadline now later hostnameSet
  | .requestStop => { s with stopRequested := true }
  | .stopCallback => { s with cancelled := s.cancelled || s.stopRequested }
  | .deadline => { s with deadlineFired := true }
  | .completed =>
    match s.pending with
    | none | some .read => s
    | some stage => s.begin (stage.next request.useTls)
  | .failed failure =>
    match s.pending with
    | none => s
    | some stage => s.finish (.error (s.error stage failure))
  | .received received => if s.pending = some .read then s.finish received.result else s

def Explains (stage : Stage) : Result HttpResponse → Prop
  | .ok _ => stage = .read
  | .error error => error.code = .dnsFailure ∨ error.code = .connectFailure ∨ error.code = .tlsFailure → stage.writes = 0

inductive Progress : Bool → Bool → Option Stage → ℕ → List (Result HttpResponse) → Prop
  | fresh : Progress false false none 0 []
  | refused (error : Error) : Progress true true none 0 [.error error]
  | running (stage : Stage) (hc : checkRequest limits request = .ok ()) : Progress true false (some stage) stage.writes []
  | answered {stage : Stage} {result : Result HttpResponse} (hc : checkRequest limits request = .ok ())
      (he : Explains stage result) : Progress true true none stage.writes [result]

def Sound (s : HttpSession) : Prop := Progress limits request s.started s.finished s.pending s.writes s.answers

variable {limits request deadline} {s : HttpSession}

theorem error_explains (s : HttpSession) (stage : Stage) (failure : Option StreamFailure) :
    Explains stage (.error (s.error stage failure)) := by
  intro h
  unfold error at h
  split_ifs at h
  · simp at h
  · split at h <;> cases stage <;> simp_all [channelError, Stage.failed, Stage.writes]

theorem received_explains (received : Received) : Explains .read received.result := by
  cases received <;> simp [Received.result, Explains, fail]

theorem start_sound (now later : ℕ) (hostnameSet : Bool) (hs : s.Sound limits request) (hn : s.started = false) :
    ({ s with started := true }.start limits request deadline now later hostnameSet).Sound limits request := by
  obtain ⟨started, stop, cancelled, fired, finished, pending, writes, answers⟩ := s
  cases hn
  cases hs
  unfold start
  split
  · exact .refused _
  · split
    · exact .refused _
    next hc =>
      split
      · exact .refused _
      · split
        · exact .refused _
        · exact .running .resolve hc

theorem step_sound (h : s.Sound limits request) (event : HttpEvent) :
    (s.step limits request deadline event).Sound limits request := by
  obtain ⟨started, stop, cancelled, fired, finished, pending, writes, answers⟩ := s
  cases event with
  | start now later hostnameSet =>
    rw [step]
    split_ifs with hs
    · exact h
    · exact start_sound now later hostnameSet h (Bool.eq_false_iff.mpr hs)
  | completed =>
    cases h with
    | running stage hc =>
      have hnext := Progress.running (stage.next request.useTls) hc
      rw [← Stage.writes_next] at hnext
      cases stage <;> exact hnext
    | _ => constructor <;> assumption
  | failed failure =>
    cases h with
    | running stage hc => exact .answered hc (error_explains _ stage failure)
    | _ => constructor <;> assumption
  | received received =>
    cases h with
    | running stage hc =>
      rw [step]
      split_ifs with hr
      · cases hr
        exact .answered hc (received_explains received)
      · exact .running stage hc
    | _ => constructor <;> assumption
  | _ => exact h

theorem run_sound (limits : TransportLimits) (request : HttpRequest) (deadline : Option ℕ) (events : List HttpEvent) :
    (Runs.run (step limits request deadline) {} events).Sound limits request :=
  Runs.run_invariant _ (fun _ event h _ => step_sound h event) .fresh (Runs.along_true _ _ _)

theorem Sound.written (h : s.Sound limits request) {response : HttpResponse} (hr : .ok response ∈ s.answers) :
    s.writes = 1 := by
  obtain ⟨started, stop, cancelled, fired, finished, pending, writes, answers⟩ := s
  cases h with
  | answered hc he =>
    cases List.mem_singleton.mp hr
    cases he
    rfl
  | _ => simp at hr

/-- Whatever the clock, the stop source and the stream do, a session hands its request to the stream at most once and
answers at most once; it says that the connection failed only if it handed nothing over. -/
theorem session_sends_once (limits : TransportLimits) (request : HttpRequest) (deadline : Option ℕ)
    (events : List HttpEvent) :
    let s := Runs.run (step limits request deadline) {} events
    s.writes ≤ 1 ∧ s.answers.length = (if s.finished then 1 else 0) ∧
      (s.started = true → s.finished = false → s.pending.isSome = true) ∧
      (s.writes = 1 → checkRequest limits request = .ok ()) ∧ (∀ response, .ok response ∈ s.answers → s.writes = 1) ∧
      ∀ error, .error error ∈ s.answers →
        error.code = .dnsFailure ∨ error.code = .connectFailure ∨ error.code = .tlsFailure → s.writes = 0 := by
  have hs := run_sound limits request deadline events
  generalize Runs.run (step limits request deadline) {} events = s at hs
  obtain ⟨started, stop, cancelled, fired, finished, pending, writes, answers⟩ := s
  cases hs with
  | fresh => simp
  | refused error => simp
  | running stage hc => cases stage <;> simp [hc]
  | @answered stage result hc he => cases result <;> cases stage <;> simp_all [Stage.writes, Explains]

/-- Over its session, a mutation is told as acknowledged, or as rejected after it was posted, only if the request was
handed over. A session that refuses the request or finds no connection leaves an ambiguous one. -/
theorem settled_only_if_sent {ρ : Type} (m : Trading.Mutation ρ) (apiKey jwt : Bytes) (limits : TransportLimits)
    (deadline : Option ℕ) (steps : List HttpEvent) (events : List Trading.Event) :
    let session := Runs.run (step limits ⟨m.request apiKey jwt, .post, ascii "443"⟩ deadline) {} steps
    let operation := Runs.run (Operation.step m) .initial events
    (∀ result, .completion result ∈ events → result ∈ session.answers) → ∀ result ∈ operation.delivered,
      session.writes = 1 ∨ (operation.posted = [] ∧ ∃ error, result = .error error) ∨
        ∃ error, result = .ok (Trading.ambiguous error m.reconciliationKey) := by
  intro session operation h result hr
  obtain hn | ha | ⟨completion, hc, rfl⟩ := Operation.delivered_origin m events hr
  · exact .inr (.inl hn)
  · exact .inr (.inr ha)
  · cases completion with
    | ok response => exact .inl ((run_sound ..).written (h _ hc))
    | error error => exact .inr (.inr ⟨error, rfl⟩)

def sampleMutation : Trading.Mutation Unit :=
  ⟨.bnbTestnet, ascii "/v1/orders", [], [], none, fun _ => .ok (), fun _ => 0⟩

theorem acknowledged_sent :
    (Runs.run (step ⟨0, 1⟩ ⟨sampleMutation.request [] [1], .post, ascii "443"⟩ none) {} [.start 0 0 true, .completed,
      .completed, .completed, .completed, .received (.response ⟨200, [], []⟩)]).writes = 1 :=
  (settled_only_if_sent sampleMutation [] [1] ⟨0, 1⟩ none _ [.start 0 0 (.given [] [1]), .completion (.ok ⟨200, [], []⟩)]
    (by simp; decide) (.ok ⟨.acknowledged, some (), none, []⟩) (by decide)).resolve_right
    (by rintro (⟨h, -⟩ | ⟨_, h⟩) <;> cases h)

end HttpSession

end PredictFun.Net
