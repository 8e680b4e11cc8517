import PredictFun.Base.EventQueue
import PredictFun.Codec.PublicWebsocket
import PredictFun.Net.Reconnect

namespace PredictFun.Wss

open Base Codec

/-- A completion that a channel owes, with the generation that its handler was made in. -/
inductive Operation
  | opening (generation : ℕ)
  | reading (generation : ℕ)
  | writing (generation : ℕ)
  deriving DecidableEq

def Operation.generation : Operation → ℕ
  | .opening generation | .reading generation | .writing generation => generation

/-- A wait on a timer. A wait that is cancelled may have expired before: its handler then still runs. -/
inductive Wait
  | reconnect
  | heartbeat (generation : ℕ)
  | acknowledgement (generation : ℕ)
  deriving DecidableEq

structure ClientStats where
  reconnects : ℕ := 0
  messages : ℕ := 0
  malformedFrames : ℕ := 0
  staleFrames : ℕ := 0
  queueOverflows : ℕ := 0
  reconciliationRequests : ℕ := 0
  reconnectStormCooldowns : ℕ := 0
  deriving DecidableEq

def OverflowMarker {δ : Type} (event : StreamEvent δ) : Prop :=
  ∃ generation, event = .state .degraded (ascii "state queue overflow") generation

structure Ledger where
  nextRequestId : ℕ := 1
  backoff : Net.ReconnectBackoff
  stats : ClientStats := {}
  inFlight : List Operation := []
  waits : List Wait := []
  -- the frames handed to a channel, with their generation
  written : List (ℕ × Outgoing) := []
  -- a null channel was dereferenced
  faulted : Bool := false
  deriving DecidableEq

structure Client (π δ : Type) where
  started : Bool := false
  sessionOpen : Bool := false
  reconnectPending : Bool := false
  -- a channel is held
  channel : Bool := false
  generation : ℕ := 0
  state : StreamState := .stopped
  queue : EventQueue (StreamEvent δ)
  protocol : π
  ledger : Ledger
  deriving DecidableEq

structure ClientOptions where
  host : Bytes := ascii "ws.predict.fun"
  port : Bytes := ascii "443"
  target : Bytes := ascii "/ws"
  -- the providers that were given
  apiKey : Bool := true
  jwt : Bool := true
  decodeLimits : DecodeLimits := {}
  maxPendingEvents : ℕ := 1024

structure Env where
  now : ℤ := 0
  -- the factory gives a channel
  channel : Bool := true
  -- `none` where a provider throws
  apiKey : Option Bytes := some (ascii "key")
  jwt : Option Bytes := some (ascii "jwt")
  -- the message of an operation that the channel fails on the spot
  readRefusal : Option Bytes := none
  writeRefusal : Outgoing → Option Bytes := fun _ => none

/-- Where the public and the private client differ in the steps that they share. -/
structure Protocol (π : Type) where
  title : String
  -- what a new connection and a lost one forget
  reset : π → π
  -- what a stop forgets
  clear : π → π
  connectClosesSession : Bool

namespace Client

variable {π δ : Type}

section

variable (P : Protocol π) (env : Env)

def setState (value : StreamState) (reason : Bytes) (force : Bool) (s : Client π δ) : Client π δ :=
  if force = false ∧ s.state = value then s
  else
    { s with
      state := value
      queue := s.queue.force (.state .degraded (ascii "state queue overflow") s.generation)
        (.state value reason s.generation) }

def drop (reason : Bytes) (s : Client π δ) : Client π δ :=
  setState .reconnectWait reason true
    { s with reconnectPending := true, channel := false, sessionOpen := false, protocol := P.reset s.protocol }

def cooldownReason (reason : Bytes) (decision : Net.ReconnectDecision) : Bytes :=
  if decision.stormCooldown then
    reason ++ ascii "; reconnect storm cooldown " ++ integerText decision.delay ++ ascii " ms"
  else reason

def scheduleReconnect (reason : Bytes) (s : Client π δ) : Client π δ :=
  if s.started = false ∨ s.reconnectPending = true then s
  else
    let next := s.ledger.backoff.next env.now
    let stats := s.ledger.stats
    { drop P (cooldownReason reason next.1) s with
      ledger :=
        { s.ledger with
          backoff := next.2
          waits := .reconnect :: s.ledger.waits
          stats :=
            { stats with
              reconnects := stats.reconnects + 1
              reconnectStormCooldowns := stats.reconnectStormCooldowns + next.1.stormCooldown.toNat } } }

def hardStop (reason : Bytes) (s : Client π δ) : Client π δ :=
  setState .stopped reason true
    { s with started := false, sessionOpen := false, reconnectPending := false, channel := false, protocol := P.clear s.protocol }

def requestStop (s : Client π δ) : Client π δ := hardStop P (ascii "stopped by caller") s

def owe (operation : Operation) (s : Client π δ) : Client π δ :=
  { s with ledger := { s.ledger with inFlight := operation :: s.ledger.inFlight } }

def arm (wait : Wait) (s : Client π δ) : Client π δ :=
  { s with ledger := { s.ledger with waits := wait :: s.ledger.waits } }

def renew (s : Client π δ) : Client π δ :=
  setState .connecting (ascii "connecting") true
    { s with
      reconnectPending := false
      generation := s.generation + 1
      sessionOpen := s.sessionOpen && !P.connectClosesSession
      protocol := P.reset s.protocol }

def connect (s : Client π δ) : Client π δ :=
  if s.started = false then s
  else
    let s := { renew P s with channel := env.channel }
    if env.channel = false then scheduleReconnect P env (ascii "WebSocket channel factory returned null") s
    else
      match env.apiKey with
      | none => scheduleReconnect P env (ascii P.title ++ ascii " WebSocket API key provider failed") s
      | some [] => scheduleReconnect P env (ascii P.title ++ ascii " WebSocket API key is empty") s
      | some (_ :: _) => s.owe (.opening s.generation)

def launch (s : Client π δ) : Client π δ :=
  connect P env { s with started := true, ledger := { s.ledger with backoff := s.ledger.backoff.markStable } }

def readNext (generation : ℕ) (s : Client π δ) : Client π δ :=
  if s.started = false ∨ generation ≠ s.generation ∨ s.channel = false then s
  else
    match env.readRefusal with
    | some reason => scheduleReconnect P env reason s
    | none => s.owe (.reading generation)

def write (outgoing : Outgoing) (s : Client π δ) : Client π δ :=
  if s.channel = false then { s with ledger := { s.ledger with faulted := true } }
  else
    let s := { s with ledger := { s.ledger with written := s.ledger.written ++ [(s.generation, outgoing)] } }
    match env.writeRefusal outgoing with
    | some reason => scheduleReconnect P env reason s
    | none => s.owe (.writing s.generation)

def openSession (s : Client π δ) : Client π δ :=
  setState .subscribing (ascii "connected; subscribing") true { s with sessionOpen := true }

def armHeartbeat (s : Client π δ) : Client π δ := s.arm (.heartbeat s.generation)

def armAckTimeout (generation : ℕ) (s : Client π δ) : Client π δ := s.arm (.acknowledgement generation)

def echoHeartbeat (timestampMs : ℤ) (s : Client π δ) : Client π δ :=
  let s := armHeartbeat s
  match encodeHeartbeatResponse timestampMs with
  | .error error => scheduleReconnect P env error.message s
  | .ok outgoing => write P env outgoing s

def wrote (generation : ℕ) (result : Option Bytes) (s : Client π δ) : Client π δ :=
  if s.started = false ∨ generation ≠ s.generation then s
  else
    match result with
    | some reason => scheduleReconnect P env reason s
    | none => s

def heartbeatExpired (generation : ℕ) (s : Client π δ) : Client π δ :=
  if s.started = true ∧ generation = s.generation then
    scheduleReconnect P env (ascii "server heartbeat deadline exceeded") s
  else s

def reconnectExpired (s : Client π δ) : Client π δ := connect P env { s with reconnectPending := false }

def takeRequestId (s : Client π δ) : Client π δ :=
  { s with ledger := { s.ledger with nextRequestId := s.ledger.nextRequestId + 1 } }

def count (update : ClientStats → ClientStats) (s : Client π δ) : Client π δ :=
  { s with ledger := { s.ledger with stats := update s.ledger.stats } }

def completing (operation : Operation) (handler : Client π δ → Client π δ) (s : Client π δ) : Client π δ :=
  if operation ∈ s.ledger.inFlight then
    handler { s with ledger := { s.ledger with inFlight := s.ledger.inFlight.erase operation } }
  else s

def expiring (wait : Wait) (handler : Client π δ → Client π δ) (s : Client π δ) : Client π δ :=
  if wait ∈ s.ledger.waits then handler { s with ledger := { s.ledger with waits := s.ledger.waits.erase wait } }
  else s

/-- A handler that dereferences a null channel ends the program. -/
def guarded (handler : Client π δ → Client π δ) (s : Client π δ) : Client π δ :=
  if s.ledger.faulted = true then s
  else if (handler s).ledger.faulted = true then { s with ledger := { s.ledger with faulted := true } }
  else handler s

end

section

variable (P : Protocol π) (env : Env) (s : Client π δ) (value : StreamState) (reason : Bytes) (force : Bool)

@[simp] theorem setState_started : (setState value reason force s).started = s.started := by
  unfold setState
  split_ifs <;> rfl

@[simp] theorem setState_sessionOpen : (setState value reason force s).sessionOpen = s.sessionOpen := by
  unfold setState
  split_ifs <;> rfl

@[simp] theorem setState_reconnectPending : (setState value reason force s).reconnectPending = s.reconnectPending := by
  unfold setState
  split_ifs <;> rfl

@[simp] theorem setState_channel : (setState value reason force s).channel = s.channel := by
  unfold setState
  split_ifs <;> rfl

@[simp] theorem setState_generation : (setState value reason force s).generation = s.generation := by
  unfold setState
  split_ifs <;> rfl

@[simp] theorem setState_protocol : (setState value reason force s).protocol = s.protocol := by
  unfold setState
  split_ifs <;> rfl

@[simp] theorem setState_ledger : (setState value reason force s).ledger = s.ledger := by
  unfold setState
  split_ifs <;> rfl

@[simp] theorem setState_state : (setState value reason force s).state = value := by
  unfold setState
  split_ifs with h
  · exact h.2
  · rfl

@[simp] theorem drop_started : (drop P reason s).started = s.started := by simp [drop]

@[simp] theorem drop_sessionOpen : (drop P reason s).sessionOpen = false := by simp [drop]

@[simp] theorem drop_reconnectPending : (drop P reason s).reconnectPending = true := by simp [drop]

@[simp] theorem drop_channel : (drop P reason s).channel = false := by simp [drop]

@[simp] theorem drop_generation : (drop P reason s).generation = s.generation := by simp [drop]

@[simp] theorem drop_state : (drop P reason s).state = .reconnectWait := by simp [drop]

@[simp] theorem drop_protocol : (drop P reason s).protocol = P.reset s.protocol := by simp [drop]

@[simp] theorem hardStop_started : (hardStop P reason s).started = false := by simp [hardStop]

@[simp] theorem hardStop_sessionOpen : (hardStop P reason s).sessionOpen = false := by simp [hardStop]

@[simp] theorem hardStop_generation : (hardStop P reason s).generation = s.generation := by simp [hardStop]

@[simp] theorem hardStop_state : (hardStop P reason s).state = .stopped := by simp [hardStop]

@[simp] theorem hardStop_protocol : (hardStop P reason s).protocol = P.clear s.protocol := by simp [hardStop]

@[simp] theorem hardStop_ledger : (hardStop P reason s).ledger = s.ledger := by simp [hardStop]

@[simp] theorem renew_started : (renew P s).started = s.started := by simp [renew]

@[simp] theorem renew_reconnectPending : (renew P s).reconnectPending = false := by simp [renew]

@[simp] theorem renew_generation : (renew P s).generation = s.generation + 1 := by simp [renew]

@[simp] theorem renew_state : (renew P s).state = .connecting := by simp [renew]

@[simp] theorem renew_protocol : (renew P s).protocol = P.reset s.protocol := by simp [renew]

@[simp] theorem renew_ledger : (renew P s).ledger = s.ledger := by simp [renew]

@[simp] theorem openSession_started : (openSession s).started = s.started := by simp [openSession]

@[simp] theorem openSession_sessionOpen : (openSession s).sessionOpen = true := by simp [openSession]

@[simp] theorem openSession_reconnectPending : (openSession s).reconnectPending = s.reconnectPending := by
  simp [openSession]

@[simp] theorem openSession_channel : (openSession s).channel = s.channel := by simp [openSession]

@[simp] theorem openSession_generation : (openSession s).generation = s.generation := by simp [openSession]

@[simp] theorem openSession_state : (openSession s).state = .subscribing := by simp [openSession]

@[simp] theorem openSession_protocol : (openSession s).protocol = s.protocol := by simp [openSession]

@[simp] theorem openSession_ledger : (openSession s).ledger = s.ledger := by simp [openSession]

@[simp] theorem scheduleReconnect_faulted : (scheduleReconnect P env reason s).ledger.faulted = s.ledger.faulted := by
  unfold scheduleReconnect
  split_ifs <;> rfl

@[simp] theorem scheduleReconnect_nextRequestId :
    (scheduleReconnect P env reason s).ledger.nextRequestId = s.ledger.nextRequestId := by
  unfold scheduleReconnect
  split_ifs <;> rfl

@[simp] theorem readNext_nextRequestId (generation : ℕ) :
    (readNext P env generation s).ledger.nextRequestId = s.ledger.nextRequestId := by
  unfold readNext
  split_ifs
  · rfl
  · cases env.readRefusal with
    | some reason => exact scheduleReconnect_nextRequestId P env s reason
    | none => rfl

@[simp] theorem write_nextRequestId (outgoing : Outgoing) :
    (write P env outgoing s).ledger.nextRequestId = s.ledger.nextRequestId := by
  unfold write
  split_ifs
  · rfl
  · cases env.writeRefusal outgoing with
    | some reason => exact scheduleReconnect_nextRequestId ..
    | none => rfl

@[simp] theorem readNext_faulted (generation : ℕ) : (readNext P env generation s).ledger.faulted = s.ledger.faulted := by
  unfold readNext
  split_ifs
  · rfl
  · cases env.readRefusal with
    | some reason => exact scheduleReconnect_faulted P env s reason
    | none => rfl

@[simp] theorem write_faulted (outgoing : Outgoing) :
    (write P env outgoing s).ledger.faulted = (s.ledger.faulted || !s.channel) := by
  unfold write
  cases hc : s.channel with
  | false => simp
  | true =>
    rw [if_neg (by decide)]
    cases env.writeRefusal outgoing with
    | some reason => simp
    | none => simp [owe]

@[simp] theorem connect_faulted : (connect P env s).ledger.faulted = s.ledger.faulted := by
  unfold connect
  split_ifs
  · rfl
  · simp
  · split <;> simp [owe]

@[simp] theorem launch_faulted : (launch P env s).ledger.faulted = s.ledger.faulted := by simp [launch]

@[simp] theorem reconnectExpired_faulted : (reconnectExpired P env s).ledger.faulted = s.ledger.faulted := by
  simp [reconnectExpired]

@[simp] theorem heartbeatExpired_faulted (generation : ℕ) :
    (heartbeatExpired P env generation s).ledger.faulted = s.ledger.faulted := by
  unfold heartbeatExpired
  split_ifs <;> simp

@[simp] theorem wrote_faulted (generation : ℕ) (result : Option Bytes) :
    (wrote P env generation result s).ledger.faulted = s.ledger.faulted := by
  unfold wrote
  split_ifs
  · rfl
  · cases result <;> simp

@[simp] theorem echoHeartbeat_faulted (timestampMs : ℤ) :
    (echoHeartbeat P env timestampMs s).ledger.faulted = (s.ledger.faulted || (decide (0 < timestampMs) && !s.channel)) := by
  unfold echoHeartbeat encodeHeartbeatResponse
  split_ifs with h
  · simp [armHeartbeat, arm, not_lt.mpr h]
  · simp [armHeartbeat, arm, not_le.mp h]

end

def Due (operation : Operation) (s : Client π δ) : Prop :=
  operation ∈ s.ledger.inFlight ∧ s.started = true ∧ operation.generation = s.generation

variable {handler : Client π δ → Client π δ}

theorem guarded_faulted_iff {s : Client π δ} (h : s.ledger.faulted = false) :
    (guarded handler s).ledger.faulted = false ↔ (handler s).ledger.faulted = false := by
  unfold guarded
  rw [if_neg (by simp [h])]
  split_ifs with hf
  · simp [hf]
  · rfl

theorem expiring_faulted {wait : Wait}
    (hh : ∀ s, (handler s).ledger.faulted = s.ledger.faulted) (s : Client π δ) :
    (expiring wait handler s).ledger.faulted = s.ledger.faulted := by
  unfold expiring
  split_ifs
  · exact hh _
  · rfl

theorem completing_faulted {operation : Operation}
    (hh : ∀ s, (handler s).ledger.faulted = s.ledger.faulted) (s : Client π δ) :
    (completing operation handler s).ledger.faulted = s.ledger.faulted := by
  unfold completing
  split_ifs
  · exact hh _
  · rfl

variable (P : Protocol π) (env : Env)

def Owed (reads : Bool) (s : Client π δ) (ledger : Ledger) : Prop :=
  ∀ operation ∈ ledger.inFlight, operation ∈ s.ledger.inFlight ∨ operation = .writing s.generation ∨
    (reads = true ∧ operation = .reading s.generation)

def Passive (reads : Bool) (s t : Client π δ) : Prop :=
  ∃ ledger, Owed reads s ledger ∧
    (t = { s with ledger := ledger } ∨
      s.started = true ∧ s.reconnectPending = false ∧ ∃ reason, t = { drop P reason s with ledger := ledger })

variable {P} {reads : Bool} {s t u : Client π δ}

theorem Owed.refl (reads : Bool) (s : Client π δ) : Owed reads s s.ledger := fun _ h => .inl h

variable {handler : Client π δ → Client π δ} {operation : Operation} {ledger : Ledger}

theorem Owed.of_eq (h : ledger.inFlight = s.ledger.inFlight) : Owed reads s ledger :=
  fun _ ho => .inl (h ▸ ho)

theorem Owed.trans (ht : Owed reads s t.ledger) (hg : t.generation = s.generation)
    (hu : Owed reads t ledger) : Owed reads s ledger := by
  intro operation ho
  rcases hu operation ho with h | h | h
  · exact ht operation h
  · exact .inr (.inl (by rw [h, hg]))
  · exact .inr (.inr ⟨h.1, by rw [h.2, hg]⟩)

theorem setState_update (value : StreamState) (reason : Bytes) (force : Bool) (s : Client π δ) (ledger : Ledger) :
    setState value reason force { s with ledger := ledger } = { setState value reason force s with ledger := ledger } := by
  unfold setState
  split_ifs <;> rfl

theorem drop_update (reason : Bytes) (s : Client π δ) (ledger : Ledger) :
    drop P reason { s with ledger := ledger } = { drop P reason s with ledger := ledger } := by
  unfold drop setState
  split_ifs <;> rfl

theorem renew_update (s : Client π δ) (ledger : Ledger) :
    renew P { s with ledger := ledger } = { renew P s with ledger := ledger } := by
  unfold renew setState
  split_ifs <;> rfl

theorem openSession_update (s : Client π δ) (ledger : Ledger) :
    openSession { s with ledger := ledger } = { openSession s with ledger := ledger } := by
  unfold openSession setState
  split_ifs <;> rfl

theorem completing_cases (operation : Operation) (handler : Client π δ → Client π δ) (s : Client π δ) :
    completing operation handler s = s ∨
    operation ∈ s.ledger.inFlight ∧ ∃ ledger, Owed false s ledger ∧
      completing operation handler s = handler { s with ledger := ledger } := by
  unfold completing
  split_ifs with h
  · refine .inr ⟨h, _, ?_, rfl⟩
    exact fun _ ho => .inl (List.mem_of_mem_erase ho)
  · exact .inl rfl

theorem completing_due (handler : Client π δ → Client π δ) (hm : operation ∈ s.ledger.inFlight) :
    ∃ ledger, Owed false s ledger ∧ ledger.faulted = s.ledger.faulted ∧ ledger.nextRequestId = s.ledger.nextRequestId ∧
      completing operation handler s = handler { s with ledger := ledger } := by
  rw [completing, if_pos hm]
  refine ⟨_, ?_, ?_, ?_, rfl⟩
  · exact fun _ ho => .inl (List.mem_of_mem_erase ho)
  · rfl
  · rfl

theorem completing_ignored (handler : Client π δ → Client π δ) (hd : ¬Due operation s)
    (hh : ∀ u : Client π δ, u.started = false ∨ operation.generation ≠ u.generation → handler u = u) :
    ∃ ledger, ledger.faulted = s.ledger.faulted ∧ completing operation handler s = { s with ledger := ledger } := by
  unfold completing
  split_ifs with hm
  · refine ⟨{ s.ledger with inFlight := s.ledger.inFlight.erase operation }, rfl, hh _ ?_⟩
    by_contra hn
    rw [not_or, not_not, Bool.not_eq_false] at hn
    exact hd ⟨hm, hn⟩
  · exact ⟨s.ledger, rfl, rfl⟩

theorem completing_not_due (hd : ¬Due operation s)
    (hh : ∀ u : Client π δ, u.started = false ∨ operation.generation ≠ u.generation → handler u = u) :
    (completing operation handler s).ledger.faulted = s.ledger.faulted := by
  obtain ⟨ledger, hl, he⟩ := completing_ignored handler hd hh
  rw [he, hl]

theorem expiring_cases (wait : Wait) (handler : Client π δ → Client π δ) (s : Client π δ) :
    expiring wait handler s = s ∨
    ∃ ledger, ledger.inFlight = s.ledger.inFlight ∧ expiring wait handler s = handler { s with ledger := ledger } := by
  unfold expiring
  split_ifs with h
  · refine .inr ⟨_, ?_, rfl⟩
    rfl
  · exact .inl rfl

theorem Passive.of_ledger (h : Owed reads s ledger) : Passive P reads s { s with ledger := ledger } :=
  ⟨ledger, h, .inl rfl⟩

theorem Passive.refl (reads : Bool) (s : Client π δ) : Passive P reads s s := Passive.of_ledger (Owed.refl reads s)

theorem guarded_cases (handler : Client π δ → Client π δ) (s : Client π δ) :
    Passive P false s (guarded handler s) ∨
    s.ledger.faulted = false ∧ (handler s).ledger.faulted = false ∧ guarded handler s = handler s := by
  unfold guarded
  split_ifs with hs hh
  · exact .inl (Passive.refl false s)
  · exact .inl (Passive.of_ledger (fun _ ho => .inl ho))
  · exact .inr ⟨by simpa using hs, by simpa using hh, rfl⟩

theorem Passive.generation (h : Passive P reads s t) : t.generation = s.generation := by
  obtain ⟨ledger, -, rfl | ⟨-, -, reason, rfl⟩⟩ := h
  · rfl
  · exact drop_generation P s reason

theorem Passive.owed (h : Passive P reads s t) : Owed reads s t.ledger := by
  obtain ⟨ledger, ho, rfl | ⟨-, -, reason, rfl⟩⟩ := h <;> exact ho

theorem Passive.state_cases (h : Passive P reads s t) : t.state = s.state ∨ t.state = .reconnectWait := by
  obtain ⟨ledger, -, rfl | ⟨-, -, reason, rfl⟩⟩ := h
  · exact .inl rfl
  · exact .inr (by simp)

theorem Passive.open_or_pending (h : Passive P reads s t) (hs : s.started = true)
    (ho : s.sessionOpen = true ∨ s.reconnectPending = true) :
    t.started = true ∧ (t.sessionOpen = true ∨ t.reconnectPending = true) := by
  obtain ⟨ledger, -, rfl | ⟨-, -, reason, rfl⟩⟩ := h
  · exact ⟨hs, ho⟩
  · exact ⟨by simpa using hs, .inr (by simp)⟩

theorem Passive.trans (h : Passive P reads s t) (hu : Passive P reads t u) : Passive P reads s u := by
  have howed := h.owed.trans h.generation hu.owed
  obtain ⟨ledger, -, rfl | ⟨hs, hp, reason, rfl⟩⟩ := h
  · obtain ⟨ledger', ho, rfl | ⟨hs, hp, reason, rfl⟩⟩ := hu
    · exact ⟨ledger', howed, .inl rfl⟩
    · exact ⟨ledger', howed, .inr ⟨hs, hp, reason, rfl⟩⟩
  · obtain ⟨ledger', ho, rfl | ⟨-, hp', -⟩⟩ := hu
    · exact ⟨ledger', howed, .inr ⟨hs, hp, reason, rfl⟩⟩
    · -- a connection is given up once
      simp at hp'

theorem Passive.mono (h : Passive P false s t) : Passive P reads s t := by
  obtain ⟨ledger, ho, ht⟩ := h
  refine ⟨ledger, fun operation hm => ?_, ht⟩
  rcases ho operation hm with h | h | h
  · exact .inl h
  · exact .inr (.inl h)
  · cases h.1

theorem scheduleReconnect_passive (reason : Bytes) (s : Client π δ) : Passive P false s (scheduleReconnect P env reason s) := by
  unfold scheduleReconnect
  split_ifs with h
  · exact Passive.refl false s
  · rw [not_or, Bool.not_eq_false, Bool.not_eq_true] at h
    refine ⟨_, ?_, .inr ⟨h.1, h.2, _, rfl⟩⟩
    exact fun _ ho => .inl ho

theorem owe_passive_writing (s : Client π δ) : Passive P false s (s.owe (.writing s.generation)) := by
  refine Passive.of_ledger (fun operation ho => ?_)
  rcases List.mem_cons.mp ho with rfl | ho
  · exact .inr (.inl rfl)
  · exact .inl ho

theorem owe_passive_reading (s : Client π δ) : Passive P true s (s.owe (.reading s.generation)) := by
  refine Passive.of_ledger (fun operation ho => ?_)
  rcases List.mem_cons.mp ho with rfl | ho
  · exact .inr (.inr ⟨rfl, rfl⟩)
  · exact .inl ho

theorem arm_passive (wait : Wait) (s : Client π δ) : Passive P false s (s.arm wait) :=
  Passive.of_ledger (fun _ ho => .inl ho)

theorem count_passive (update : ClientStats → ClientStats) (s : Client π δ) : Passive P false s (s.count update) :=
  Passive.of_ledger (fun _ ho => .inl ho)

theorem takeRequestId_passive (s : Client π δ) : Passive P false s s.takeRequestId :=
  Passive.of_ledger (fun _ ho => .inl ho)

theorem readNext_passive (generation : ℕ) (s : Client π δ) : Passive P true s (readNext P env generation s) := by
  unfold readNext
  split_ifs with h
  · exact Passive.refl true s
  · rw [not_or, not_or, not_not] at h
    cases env.readRefusal with
    | some reason => exact (scheduleReconnect_passive env reason s).mono
    | none =>
      rw [h.2.1]
      exact owe_passive_reading s

theorem write_passive (outgoing : Outgoing) (s : Client π δ) : Passive P false s (write P env outgoing s) := by
  unfold write
  split_ifs with h
  · exact Passive.of_ledger (fun _ ho => .inl ho)
  · have hwritten : Passive P false s
        { s with ledger := { s.ledger with written := s.ledger.written ++ [(s.generation, outgoing)] } } :=
      Passive.of_ledger (fun _ ho => .inl ho)
    cases env.writeRefusal outgoing with
    | some reason => exact hwritten.trans (scheduleReconnect_passive env reason _)
    | none => exact hwritten.trans (owe_passive_writing _)

theorem echoHeartbeat_passive (timestampMs : ℤ) (s : Client π δ) : Passive P false s (echoHeartbeat P env timestampMs s) := by
  refine (arm_passive (.heartbeat s.generation) s).trans ?_
  unfold echoHeartbeat
  cases encodeHeartbeatResponse timestampMs with
  | error error => exact scheduleReconnect_passive env error.message _
  | ok outgoing => exact write_passive env outgoing _

theorem wrote_passive (generation : ℕ) (result : Option Bytes) (s : Client π δ) :
    Passive P false s (wrote P env generation result s) := by
  unfold wrote
  split_ifs
  · exact Passive.refl false s
  · cases result with
    | some reason => exact scheduleReconnect_passive env reason s
    | none => exact Passive.refl false s

theorem heartbeatExpired_passive (generation : ℕ) (s : Client π δ) :
    Passive P false s (heartbeatExpired P env generation s) := by
  unfold heartbeatExpired
  split_ifs
  · exact scheduleReconnect_passive env _ s
  · exact Passive.refl false s

theorem scheduleReconnect_eq (reason : Bytes) (hs : s.started = true) (hp : s.reconnectPending = false) :
    ∃ reason' ledger, ledger.inFlight = s.ledger.inFlight ∧
      scheduleReconnect P env reason s = { drop P reason' s with ledger := ledger } := by
  rw [scheduleReconnect, if_neg (by simp [hs, hp])]
  refine ⟨_, _, ?_, rfl⟩
  rfl

theorem scheduleReconnect_pending (reason : Bytes) (hs : s.started = true) :
    (scheduleReconnect P env reason s).reconnectPending = true := by
  unfold scheduleReconnect
  split_ifs with h
  · exact h.resolve_left (by simp [hs])
  · simp

theorem scheduleReconnect_channel (reason : Bytes) (hs : s.started = true) (hp : s.reconnectPending = false) :
    (scheduleReconnect P env reason s).channel = false := by
  obtain ⟨reason', ledger, -, he⟩ := scheduleReconnect_eq env (P := P) reason hs hp
  simp [he]

theorem readNext_kept (hs : s.started = true) (hc : s.channel = true) (hr : env.readRefusal = none) :
    readNext P env s.generation s = s.owe (.reading s.generation) := by
  rw [readNext, if_neg (by simp [hs, hc]), hr]

theorem readNext_dropped {reason : Bytes} (hs : s.started = true) (hc : s.channel = true) (hr : env.readRefusal = some reason) :
    readNext P env s.generation s = scheduleReconnect P env reason s := by
  rw [readNext, if_neg (by simp [hs, hc]), hr]

theorem opened_channel (hs : s.started = true) (hl : s.channel = !s.reconnectPending) :
    (readNext P env s.generation (armHeartbeat (openSession s))).channel = true ↔
      s.reconnectPending = false ∧ env.readRefusal = none := by
  have hstarted : (armHeartbeat (openSession s)).started = true := by simpa [armHeartbeat, arm] using hs
  have hgeneration : (armHeartbeat (openSession s)).generation = s.generation := by simp [armHeartbeat, arm]
  cases hp : s.reconnectPending with
  | true =>
    rw [hp] at hl
    rw [readNext, if_pos (.inr (.inr (by simpa [armHeartbeat, arm] using hl)))]
    simp [armHeartbeat, arm, hl]
  | false =>
    rw [hp] at hl
    have hpending : (armHeartbeat (openSession s)).reconnectPending = false := by simpa [armHeartbeat, arm] using hp
    have hchannel : (armHeartbeat (openSession s)).channel = true := by simpa [armHeartbeat, arm] using hl
    rw [← hgeneration]
    cases hr : env.readRefusal with
    | none =>
      rw [readNext_kept env hstarted hchannel hr]
      simpa [owe] using hchannel
    | some reason =>
      rw [readNext_dropped env hstarted hchannel hr, scheduleReconnect_channel env reason hstarted hpending]
      simp

theorem write_kept {outgoing : Outgoing} (hc : s.channel = true) (hr : env.writeRefusal outgoing = none) :
    ∃ ledger, write P env outgoing s = { s with ledger := ledger } ∧ ledger.faulted = s.ledger.faulted ∧
      ledger.nextRequestId = s.ledger.nextRequestId ∧ ledger.written = s.ledger.written ++ [(s.generation, outgoing)] := by
  rw [write, if_neg (by simp [hc])]
  dsimp only
  rw [hr]
  refine ⟨_, rfl, ?_, ?_, ?_⟩ <;> rfl

theorem write_dropped {outgoing : Outgoing} {reason : Bytes} (hc : s.channel = true) (hs : s.started = true)
    (hp : s.reconnectPending = false) (hr : env.writeRefusal outgoing = some reason) :
    ∃ reason' ledger, write P env outgoing s = { drop P reason' s with ledger := ledger } := by
  rw [write, if_neg (by simp [hc])]
  dsimp only
  rw [hr]
  obtain ⟨reason', ledger, -, he⟩ := scheduleReconnect_eq env (P := P) reason
    (s := { s with ledger := { s.ledger with written := s.ledger.written ++ [(s.generation, outgoing)] } }) hs hp
  dsimp only
  rw [he, drop_update]
  exact ⟨reason', ledger, rfl⟩

def Renewed (P : Protocol π) (s t : Client π δ) : Prop :=
  ∃ ledger : Ledger,
    (t = { renew P s with channel := true, ledger := ledger } ∧
      ∀ operation ∈ ledger.inFlight, operation ∈ s.ledger.inFlight ∨ operation = .opening (s.generation + 1)) ∨
    ∃ reason, t = { drop P reason (renew P s) with ledger := ledger } ∧ ledger.inFlight = s.ledger.inFlight

theorem Renewed.of_ledger (hl : ledger.inFlight = s.ledger.inFlight)
    (h : Renewed P { s with ledger := ledger } t) : Renewed P s t := by
  obtain ⟨ledger', ⟨rfl, ho⟩ | ⟨reason, rfl, ho⟩⟩ := h
  · rw [renew_update]
    exact ⟨ledger', .inl ⟨rfl, hl ▸ ho⟩⟩
  · rw [renew_update, drop_update]
    exact ⟨ledger', .inr ⟨reason, rfl, hl ▸ ho⟩⟩

theorem connect_renewed (hs : s.started = true) : Renewed P s (connect P env s) := by
  have hgiven : ∀ reason, Renewed P s (scheduleReconnect P env reason { renew P s with channel := env.channel }) := by
    intro reason
    obtain ⟨reason', ledger, hl, he⟩ := scheduleReconnect_eq env (P := P) reason (s := { renew P s with channel := env.channel })
      (by simpa using hs) (by simp)
    exact ⟨ledger, .inr ⟨reason', he, by simpa using hl⟩⟩
  rw [connect, if_neg (by simp [hs])]
  dsimp only
  split_ifs with hchannel
  · exact hgiven _
  · split
    · exact hgiven _
    · exact hgiven _
    · rw [Bool.not_eq_false] at hchannel
      rw [hchannel]
      refine ⟨_, .inl ⟨rfl, ?_⟩⟩
      intro operation ho
      rcases List.mem_cons.mp ho with rfl | ho
      · simp
      · exact .inl (by simpa using ho)

theorem connect_stopped (hs : s.started = false) : connect P env s = s := if_pos hs

theorem launch_renewed (s : Client π δ) : Renewed P { s with started := true } (launch P env s) := by
  have h := connect_renewed env (P := P)
    (s := { s with started := true, ledger := { s.ledger with backoff := s.ledger.backoff.markStable } }) rfl
  exact Renewed.of_ledger (s := { s with started := true }) rfl h

theorem completing_passive
    (hh : ∀ s, Passive P false s (handler s)) (s : Client π δ) : Passive P false s (completing operation handler s) := by
  rcases completing_cases operation handler s with he | ⟨-, ledger, ho, he⟩
  · rw [he]
    exact Passive.refl false s
  · rw [he]
    exact (Passive.of_ledger ho).trans (hh _)

theorem expiring_passive {wait : Wait} (hh : ∀ s, Passive P false s (handler s))
    (s : Client π δ) : Passive P false s (expiring wait handler s) := by
  rcases expiring_cases wait handler s with he | ⟨ledger, hl, he⟩
  · rw [he]
    exact Passive.refl false s
  · rw [he]
    exact (Passive.of_ledger (Owed.of_eq hl)).trans (hh _)

theorem reconnecting_cases (s : Client π δ) :
    expiring .reconnect (reconnectExpired P env) s = s ∨
    (s.started = true ∧ Renewed P s (expiring .reconnect (reconnectExpired P env) s)) ∨
    s.started = false ∧ ∃ ledger, Owed false s ledger ∧
      expiring .reconnect (reconnectExpired P env) s = { s with reconnectPending := false, ledger := ledger } := by
  rcases expiring_cases .reconnect (reconnectExpired P env) s with he | ⟨ledger, hl, he⟩
  · exact .inl he
  · rw [he, reconnectExpired]
    rcases Bool.eq_false_or_eq_true s.started with hs | hs
    · have h := connect_renewed env (P := P) (s := { s with reconnectPending := false, ledger := ledger }) hs
      exact .inr (.inl ⟨hs, Renewed.of_ledger hl h⟩)
    · exact .inr (.inr ⟨hs, ledger, Owed.of_eq hl, connect_stopped env (s := { s with reconnectPending := false, ledger := ledger }) hs⟩)

theorem setState_reaches (value : StreamState) (reason : Bytes) (force : Bool) (s : Client π δ) :
    EventQueue.Reaches OverflowMarker s.queue (setState value reason force s).queue := by
  unfold setState
  split_ifs
  · exact .refl _
  · exact EventQueue.reaches_force ⟨_, rfl⟩ s.queue _

theorem drop_reaches (reason : Bytes) (s : Client π δ) :
    EventQueue.Reaches OverflowMarker s.queue (drop P reason s).queue :=
  setState_reaches .reconnectWait reason true
    { s with reconnectPending := true, channel := false, sessionOpen := false, protocol := P.reset s.protocol }

theorem hardStop_reaches (reason : Bytes) (s : Client π δ) :
    EventQueue.Reaches OverflowMarker s.queue (hardStop P reason s).queue :=
  setState_reaches .stopped reason true
    { s with started := false, sessionOpen := false, reconnectPending := false, channel := false, protocol := P.clear s.protocol }

theorem openSession_reaches (s : Client π δ) : EventQueue.Reaches OverflowMarker s.queue (openSession s).queue :=
  setState_reaches .subscribing _ true { s with sessionOpen := true }

theorem Passive.queue (h : Passive P reads s t) : EventQueue.Reaches OverflowMarker s.queue t.queue := by
  obtain ⟨ledger, -, rfl | ⟨-, -, reason, rfl⟩⟩ := h
  · exact .refl _
  · exact drop_reaches reason s

theorem Renewed.queue (h : Renewed P s t) : EventQueue.Reaches OverflowMarker s.queue t.queue := by
  have hrenew : EventQueue.Reaches OverflowMarker s.queue (renew P s).queue :=
    setState_reaches .connecting _ true
      { s with
        reconnectPending := false
        generation := s.generation + 1
        sessionOpen := s.sessionOpen && !P.connectClosesSession
        protocol := P.reset s.protocol }
  obtain ⟨ledger, ⟨rfl, -⟩ | ⟨reason, rfl, -⟩⟩ := h
  · exact hrenew
  · exact hrenew.trans (drop_reaches reason (renew P s))

theorem Passive.keeps {I : Client π δ → Prop} (hl : ∀ s ledger, I s → I { s with ledger := ledger })
    (hd : ∀ s reason, I s → s.started = true → s.reconnectPending = false → I (drop P reason s))
    (h : Passive P reads s t) (hi : I s) : I t := by
  obtain ⟨ledger, -, rfl | ⟨hs, hp, reason, rfl⟩⟩ := h
  · exact hl s ledger hi
  · exact hl _ ledger (hd s reason hi hs hp)

end Client

def ackFrame (requestId : ℕ) : Bytes :=
  ascii "\x7b\"type\":\"R\",\"requestId\":" ++ decimalText requestId ++ ascii ",\"success\":true\x7d"

def heartbeatFrame (timestampMs : ℕ) : Bytes :=
  ascii "\x7b\"type\":\"M\",\"topic\":\"heartbeat\",\"data\":" ++ decimalText timestampMs ++ ascii "\x7d"

end PredictFun.Wss
