import PredictFun.Base.Runs
import PredictFun.Codec.PrivateRest

namespace PredictFun.Net

open Base Codec

structure WebSocketLimits where
  maxFrameBytes : ℕ := 2 * 1024 * 1024

structure StreamFailure where
  value : ℤ
  category : Bytes

def channelError (code : ErrorCode) (stage : Bytes) (failure : StreamFailure) : Error where
  code := code
  message := stage ++ ascii " failed: ec=" ++ integerText failure.value ++ ascii " (" ++ failure.category ++ ascii ")"
  field := []

def closedError : Error where
  code := .websocketClosed
  message := ascii "WebSocket is not open"
  field := []

/-- The serial number of an accepted write stands for its handler. -/
structure PendingWrite where
  serial : ℕ
  text : Bytes
  deriving DecidableEq

/-- A channel after its handshake, or one that was never opened. -/
structure Channel where
  opened : Bool
  readActive : Bool := false
  writeActive : Bool := false
  writes : List PendingWrite := []
  -- what the stream was given and has not completed
  streaming : List PendingWrite := []
  closing : ℕ := 0
  -- the handlers called so far, of accepted writes and of the others
  accepted : ℕ := 0
  completed : List (ℕ × Result Unit) := []
  refused : List Error := []
  readReplies : List (Result Bytes) := []
  closeReplies : List (Result Unit) := []
  undefined : Bool := false

inductive Call
  | read
  | write (text : Bytes)
  | close
  | cancel

inductive ReadOutcome
  | text (value : Bytes)
  | binary
  | closed
  | messageTooBig
  | failed (failure : StreamFailure)

/-- What happens on the executor of a channel. A handler is called inline. The calls it makes come next wherever the
channel has nothing left to do after it, and are part of the event where it has. -/
inductive Input
  | call (call : Call)
  | readCompleted (outcome : ReadOutcome)
  | writeCompleted (failure : Option StreamFailure) (handlers : List (List Call))
  -- none when the error is that the peer has closed
  | closeCompleted (failure : Option StreamFailure)

namespace Channel

def read (s : Channel) : Channel :=
  if s.opened = false then { s with readReplies := s.readReplies ++ [.error closedError] }
  else if s.readActive then
    { s with readReplies := s.readReplies ++ [fail .protocolError "only one WebSocket read may be active" ""] }
  else { s with readActive := true }

def startWrite (s : Channel) : Channel :=
  match s.writes with
  | [] => s
  | front :: _ =>
    if s.opened = false then s else { s with writeActive := true, streaming := s.streaming ++ [front] }

def queued (s : Channel) (text : Bytes) : Channel :=
  { s with writes := s.writes ++ [⟨s.accepted, text⟩], accepted := s.accepted + 1 }

def write (limits : WebSocketLimits) (s : Channel) (text : Bytes) : Channel :=
  if s.opened = false then { s with refused := s.refused ++ [closedError] }
  else if limits.maxFrameBytes < text.length then
    { s with
      refused := s.refused ++
        [⟨.websocketFrameTooLarge, ascii "outbound WebSocket frame exceeds configured limit", [], 0, 0⟩] }
  else if s.writeActive then s.queued text
  else (s.queued text).startWrite

def cancelIo (s : Channel) : Channel := { s with opened := false }

def close (s : Channel) : Channel :=
  if s.opened = false then { s.cancelIo with closeReplies := s.closeReplies ++ [.ok ()] }
  else { s with opened := false, closing := s.closing + 1 }

def call (limits : WebSocketLimits) (s : Channel) : Call → Channel
  | .read => s.read
  | .write text => s.write limits text
  | .close => s.close
  | .cancel => s.cancelIo

def handle (limits : WebSocketLimits) (s : Channel) (calls : List Call) : Channel := calls.foldl (call limits) s

def completeRead (s : Channel) (outcome : ReadOutcome) : Channel :=
  let reply (opened : Bool) (result : Result Bytes) : Channel :=
    { s with readActive := false, opened := opened, readReplies := s.readReplies ++ [result] }
  match outcome with
  | .text value => reply s.opened (.ok value)
  | .binary => reply s.opened (fail .protocolError "binary WebSocket frames are not supported" "")
  | .closed => reply false (.error closedError)
  | .messageTooBig => reply false (fail .websocketFrameTooLarge "WebSocket frame exceeds configured limit" "")
  | .failed failure => reply false (.error (channelError .readFailure (ascii "WebSocket read") failure))

def answer (s : Channel) (front : PendingWrite) (rest : List PendingWrite) (result : Result Unit) : Channel :=
  { s with writes := rest, completed := s.completed ++ [(front.serial, result)] }

def failQueuedWrites (limits : WebSocketLimits) (error : Error) : ℕ → List (List Call) → Channel → Channel
  | 0, _, s => s
  | rounds + 1, handlers, s =>
    match s.writes with
    | [] => s
    | front :: rest =>
      failQueuedWrites limits error rounds handlers.tail
        ((s.answer front rest (.error error)).handle limits (handlers.headD []))

def released (s : Channel) : Channel := { s with writeActive := false, streaming := s.streaming.tail }

def completeWrite (limits : WebSocketLimits) (s : Channel) (failure : Option StreamFailure) (handlers : List (List Call)) :
    Channel :=
  match s.writes with
  -- the front of an empty queue
  | [] => { s with undefined := true }
  | front :: rest =>
    match failure with
    | none => ((s.released.answer front rest (.ok ())).handle limits (handlers.headD [])).startWrite
    | some failure =>
      let error := channelError .writeFailure (ascii "WebSocket write") failure
      let left := ({ s.released with opened := false }.answer front rest (.error error)).handle limits (handlers.headD [])
      failQueuedWrites limits closedError left.writes.length handlers.tail left

def completeClose (s : Channel) (failure : Option StreamFailure) : Channel :=
  let result : Result Unit :=
    match failure with
    | none => .ok ()
    | some failure => .error (channelError .websocketClosed (ascii "WebSocket close") failure)
  { s.cancelIo with closing := s.closing - 1, closeReplies := s.closeReplies ++ [result] }

def step (limits : WebSocketLimits) (s : Channel) : Input → Channel
  | .call c => s.call limits c
  | .readCompleted outcome => s.completeRead outcome
  | .writeCompleted failure handlers => s.completeWrite limits failure handlers
  | .closeCompleted failure => s.completeClose failure

def Possible (s : Channel) : Input → Prop
  | .call _ => True
  | .readCompleted _ => s.readActive = true
  | .writeCompleted _ _ => s.streaming ≠ []
  | .closeCompleted _ => 0 < s.closing

structure Accounted (s : Channel) : Prop where
  serials : s.completed.map Prod.fst ++ s.writes.map PendingWrite.serial = List.range s.accepted
  defined : s.undefined = false

structure Steady (s : Channel) : Prop where
  streaming : s.streaming = s.writes.take 1
  active : s.writeActive = true ↔ s.writes ≠ []

def closes : Call → Bool
  | .close | .cancel => true
  | .read | .write _ => false

def fits (limits : WebSocketLimits) : Call → Bool
  | .write text => decide (text.length ≤ limits.maxFrameBytes)
  | .read | .close | .cancel => false

structure SameQueue (s t : Channel) : Prop where
  writes : t.writes = s.writes
  streaming : t.streaming = s.streaming
  active : t.writeActive = s.writeActive
  accepted : t.accepted = s.accepted
  completed : t.completed = s.completed
  undefined : t.undefined = s.undefined

variable {s t : Channel} (limits : WebSocketLimits)

theorem call_cases (s : Channel) (c : Call) :
    ((s.opened && fits limits c) = false ∧ (s.call limits c).opened = (s.opened && !closes c) ∧
      SameQueue s (s.call limits c)) ∨
    (s.opened && fits limits c) = true ∧ closes c = false ∧
      ∃ text, s.call limits c = if s.writeActive then s.queued text else (s.queued text).startWrite := by
  cases c with
  | read =>
    left
    simp only [call, read]
    split_ifs
    all_goals exact ⟨by simp [fits], by simp [closes], rfl, rfl, rfl, rfl, rfl, rfl⟩
  | write text =>
    simp only [call, write]
    by_cases ho : s.opened = false
    · rw [if_pos ho]
      exact .inl ⟨by simp [ho], by simp [closes], rfl, rfl, rfl, rfl, rfl, rfl⟩
    rw [if_neg ho]
    by_cases hl : limits.maxFrameBytes < text.length
    · rw [if_pos hl]
      exact .inl ⟨by simp [fits, hl], by simp [closes], rfl, rfl, rfl, rfl, rfl, rfl⟩
    · rw [if_neg hl]
      exact .inr ⟨by simpa [fits, ho] using hl, rfl, text, rfl⟩
  | close =>
    left
    simp only [call, close]
    split_ifs
    all_goals exact ⟨by simp [fits], by simp [closes, cancelIo], rfl, rfl, rfl, rfl, rfl, rfl⟩
  | cancel => exact .inl ⟨by simp [fits], by simp [call, cancelIo, closes], rfl, rfl, rfl, rfl, rfl, rfl⟩

theorem Accounted.same (h : Accounted s) (hs : SameQueue s t) : Accounted t := by
  constructor
  · rw [hs.completed, hs.writes, hs.accepted]
    exact h.serials
  · rw [hs.undefined]
    exact h.defined

theorem Accounted.startWrite (h : Accounted s) : Accounted s.startWrite := by
  unfold Channel.startWrite
  split
  · exact h
  · split_ifs
    · exact h
    · exact ⟨h.serials, h.defined⟩

theorem Accounted.queued (h : Accounted s) (text : Bytes) : Accounted (s.queued text) := by
  constructor
  · have hserials := h.serials
    simp only [Channel.queued, List.map_append, List.map_cons, List.map_nil, List.range_succ, ← hserials, List.append_assoc]
  · exact h.defined

theorem Accounted.call (h : Accounted s) (c : Call) : Accounted (s.call limits c) := by
  rcases call_cases limits s c with ⟨_, _, hs⟩ | ⟨_, _, text, hc⟩
  · exact h.same hs
  · rw [hc]
    split_ifs
    · exact h.queued text
    · exact (h.queued text).startWrite

theorem Accounted.handle (h : Accounted s) (calls : List Call) : Accounted (s.handle limits calls) := by
  induction calls generalizing s with
  | nil => exact h
  | cons c calls ih => exact ih (h.call limits c)

theorem Accounted.answer {front : PendingWrite} {rest : List PendingWrite} (h : Accounted s)
    (hw : s.writes = front :: rest) (result : Result Unit) : Accounted (s.answer front rest result) := by
  constructor
  · have hserials := h.serials
    rw [hw, List.map_cons] at hserials
    simpa only [Channel.answer, List.map_append, List.map_cons, List.map_nil, List.append_assoc, List.singleton_append]
      using hserials
  · exact h.defined

theorem Accounted.failQueuedWrites (h : Accounted s) (error : Error) (rounds : ℕ) (handlers : List (List Call)) :
    Accounted (failQueuedWrites limits error rounds handlers s) := by
  induction rounds generalizing s handlers with
  | zero => exact h
  | succ rounds ih =>
    unfold Channel.failQueuedWrites
    split
    · exact h
    · next front rest hw => exact ih ((h.answer hw _).handle limits _) _

theorem Accounted.completeWrite (h : Accounted s) (hw : s.writes ≠ []) (failure : Option StreamFailure)
    (handlers : List (List Call)) : Accounted (s.completeWrite limits failure handlers) := by
  unfold Channel.completeWrite
  split
  · next he => exact absurd he hw
  · next front rest he =>
    cases failure with
    | none =>
      have hreleased : Accounted s.released := ⟨h.serials, h.defined⟩
      exact ((hreleased.answer he _).handle limits _).startWrite
    | some failure =>
      have hreleased : Accounted { s.released with opened := false } := ⟨h.serials, h.defined⟩
      exact ((hreleased.answer he _).handle limits _).failQueuedWrites limits _ _ _

theorem Accounted.step (h : Accounted s) (hs : Steady s) (input : Input) (hp : Possible s input) :
    Accounted (s.step limits input) := by
  cases input with
  | call c => exact h.call limits c
  | readCompleted outcome => cases outcome <;> exact ⟨h.serials, h.defined⟩
  | writeCompleted failure handlers =>
    apply h.completeWrite limits
    rintro hw
    exact hp (by rw [hs.streaming, hw, List.take_nil])
  | closeCompleted => exact ⟨h.serials, h.defined⟩

end Channel

end PredictFun.Net
