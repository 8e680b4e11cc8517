import PredictFun.Wss.PrivateSound
import PredictFun.Wss.PublicSound

namespace PredictFun.Wss

open Base Codec

namespace Client

variable {π δ κ : Type} {s : Client π δ}

-- a completion that is not due is dropped, and one that is due finds the client as it is but for the completion itself

theorem completing_faulted_iff {operation : Operation} {handler : Client π δ → Client π δ} {C : Prop}
    (hidle : ∀ u : Client π δ, u.started = false ∨ operation.generation ≠ u.generation → handler u = u)
    (hdue : Due operation s → ∀ ledger, Owed false s ledger → ledger.nextRequestId = s.ledger.nextRequestId →
      ((handler { s with ledger := ledger }).ledger.faulted = false ↔ ledger.faulted = false ∧ C)) :
    (completing operation handler s).ledger.faulted = false ↔ s.ledger.faulted = false ∧ (Due operation s → C) := by
  by_cases hd : Due operation s
  · obtain ⟨ledger, hl, hf, hn, he⟩ := completing_due handler hd.1
    rw [he, hdue hd ledger hl hn, hf]
    exact and_congr_right' ⟨fun h _ => h, fun h => h hd⟩
  · rw [completing_not_due hd hidle]
    exact ⟨fun h => ⟨h, fun h => absurd h hd⟩, And.left⟩

theorem never_faulted_iff {step : Client π δ → κ → Client π δ} (Sound : Client π δ → Prop) {Holds : Client π δ → κ → Prop}
    {initial : Client π δ} (hsound : ∀ s input, Sound s → Sound (step s input))
    (hstep : ∀ s input, Sound s → s.ledger.faulted = false → ((step s input).ledger.faulted = false ↔ Holds s input))
    (hinitial : Sound initial ∧ initial.ledger.faulted = false) (inputs : List κ) :
    (∀ before, before <+: inputs → (Runs.run step initial before).ledger.faulted = false) ↔
      Runs.Along step Holds initial inputs :=
  Runs.good_iff step (D := fun _ _ => True) (I := fun s => Sound s ∧ s.ledger.faulted = false)
    (C := fun s => s.ledger.faulted = false) (fun _ hi => hi.2)
    (fun s input hi _ hq => ⟨hsound s input hi.1, (hstep s input hi.1 hi.2).mpr hq⟩)
    (fun s input hi _ hc => (hstep s input hi.1 hi.2).mp hc) hinitial (Runs.along_true _ _ inputs)

end Client

namespace Public

open Client

variable (env : Env) {s t : PublicClient}

structure Listed (names : List Bytes) (s : PublicClient) : Prop where
  named : ∀ runtime ∈ s.protocol.topics, publicTopicName runtime.topic = .ok runtime.name
  listed : ∀ name ∈ names, contains name s.protocol.topics = true

variable {names : List Bytes}

theorem Listed.passive {reads : Bool} (h : Listed names s) (hp : Passive protocol reads s t) :
    Listed names t := by
  obtain ⟨ledger, -, rfl | ⟨-, -, reason, rfl⟩⟩ := hp
  · exact ⟨h.named, h.listed⟩
  · constructor
    · simpa [protocol, TopicRuntime.reset] using h.named
    · intro name hm
      have := h.listed name hm
      simpa [protocol, contains_iff, TopicRuntime.reset] using this

theorem Listed.tail {name : Bytes} (h : Listed (name :: names) s) : Listed names s :=
  ⟨h.named, fun name hm => h.listed name (List.mem_cons_of_mem _ hm)⟩

theorem sendAll_dead_iff (h : Listed names s) (hp : s.reconnectPending = true) (hc : s.channel = false) :
    (sendAll env names s).ledger.faulted = false ↔
      s.ledger.faulted = false ∧ (names = [] ∨ maxRequestId < s.ledger.nextRequestId) := by
  induction names generalizing s with
  | nil => simp [sendAll]
  | cons name names ih =>
    have hsend := sendSubscription_eq env true h.named (h.listed name List.mem_cons_self)
    change (sendAll env names (sendSubscription env name true s)).ledger.faulted = false ↔ _
    by_cases hid : maxRequestId < s.ledger.nextRequestId
    · rw [hsend, if_pos hid, scheduleReconnect, if_pos (.inr hp)]
      rw [ih (h.tail.passive (takeRequestId_passive s)) hp hc]
      simp [takeRequestId, hid, Nat.lt_succ_of_lt hid]
    · refine iff_of_false (fun hf => ?_) (fun hf => by simp [hid] at hf)
      have hwritten := sendAll_faulted env names hf
      rw [hsend, if_neg hid, write_faulted] at hwritten
      simp [withPending, takeRequestId, hc] at hwritten

def Sendable : ℕ → List Bytes → Prop
  | _, [] => True
  | requestId, name :: names =>
    maxRequestId < requestId ∨
      if env.writeRefusal (.subscribe requestId name) = none then Sendable (requestId + 1) names
      else names = [] ∨ maxRequestId < requestId + 1

theorem sendAll_held_iff (h : Listed names s) (hs : s.started = true) (hp : s.reconnectPending = false)
    (hc : s.channel = true) :
    (sendAll env names s).ledger.faulted = false ↔ s.ledger.faulted = false ∧ Sendable env s.ledger.nextRequestId names := by
  induction names generalizing s with
  | nil => simp [sendAll, Sendable]
  | cons name names ih =>
    have hsend := sendSubscription_eq env true h.named (h.listed name List.mem_cons_self)
    obtain ⟨requests, -, hpassive⟩ := sendSubscription_cases env name true s
    have hlisted : Listed names (sendSubscription env name true s) :=
      Listed.passive (s := withPending _ s) ⟨h.named, h.tail.listed⟩ hpassive
    change (sendAll env names (sendSubscription env name true s)).ledger.faulted = false ↔ _
    by_cases hid : maxRequestId < s.ledger.nextRequestId
    · rw [if_pos hid] at hsend
      rw [hsend] at hlisted ⊢
      rw [sendAll_dead_iff env hlisted (scheduleReconnect_pending env _ hs) (scheduleReconnect_channel env _ hs hp)]
      simp [takeRequestId, Sendable, hid, Nat.lt_succ_of_lt hid]
    · rw [if_neg hid] at hsend
      rw [hsend] at hlisted ⊢
      obtain ⟨u, hu⟩ : ∃ u, u = withPending (· ++ [⟨s.ledger.nextRequestId, true, name⟩]) s.takeRequestId := ⟨_, rfl⟩
      have hnext : u.ledger.nextRequestId = s.ledger.nextRequestId + 1 := by rw [hu]; rfl
      have hfaulted : u.ledger.faulted = s.ledger.faulted := by rw [hu]; rfl
      have hchannel : u.channel = true := by rw [hu]; exact hc
      have hstarted : u.started = true := by rw [hu]; exact hs
      have hpending : u.reconnectPending = false := by rw [hu]; exact hp
      rw [← hu] at hlisted ⊢
      change Listed names (write protocol env (.subscribe s.ledger.nextRequestId name) u) at hlisted
      change (sendAll env names (write protocol env (.subscribe s.ledger.nextRequestId name) u)).ledger.faulted = false ↔ _
      simp only [Sendable, hid, false_or]
      cases hr : env.writeRefusal (.subscribe s.ledger.nextRequestId name) with
      | none =>
        obtain ⟨ledger, he, hl, hn, -⟩ := write_kept env (P := protocol) hchannel hr
        rw [he] at hlisted ⊢
        rw [ih hlisted hstarted hpending hchannel, if_pos rfl]
        simp only [hl, hn, hnext, hfaulted]
      | some reason =>
        obtain ⟨reason', ledger, he⟩ := write_dropped env (P := protocol) hchannel hstarted hpending hr
        rw [sendAll_dead_iff env hlisted (by simp [he]) (by simp [he]), if_neg (by simp)]
        simp [hnext, hfaulted, hchannel]

def OpensSafely (s : PublicClient) : Prop :=
  if s.reconnectPending = false ∧ env.readRefusal = none then
    Sendable env s.ledger.nextRequestId (s.protocol.topics.map TopicRuntime.name)
  else s.protocol.topics = [] ∨ maxRequestId < s.ledger.nextRequestId

theorem names_passive {reads : Bool} (h : Passive protocol reads s t) :
    t.protocol.topics.map TopicRuntime.name = s.protocol.topics.map TopicRuntime.name := by
  obtain ⟨ledger, -, rfl | ⟨-, -, reason, rfl⟩⟩ := h
  · rfl
  · simp only [drop_protocol, protocol, List.map_map]
    rfl

theorem opened_faulted_iff (h : Sound s) (hs : s.started = true) :
    (opened env s.generation none s).ledger.faulted = false ↔ s.ledger.faulted = false ∧ OpensSafely env s := by
  have hlinked := h.linked hs
  obtain ⟨u, hu⟩ : ∃ u, u = readNext protocol env s.generation (armHeartbeat (openSession s)) := ⟨_, rfl⟩
  have hopened : opened env s.generation none s =
      armAckTimeout s.generation (sendAll env (u.protocol.topics.map TopicRuntime.name) u) := by
    rw [opened, if_neg (by simp [hs]), hu]
  have hread : Passive protocol true (openSession s) u := by
    rw [hu]
    exact (arm_passive _ _).mono.trans (readNext_passive env _ _)
  have hnames : u.protocol.topics.map TopicRuntime.name = s.protocol.topics.map TopicRuntime.name :=
    (names_passive hread).trans (by simp)
  have hlisted : Listed (s.protocol.topics.map TopicRuntime.name) u := by
    refine Listed.passive (s := openSession s) ⟨by simpa using h.named, fun name hm => ?_⟩ hread
    simpa [contains_iff] using hm
  have hfaulted : u.ledger.faulted = s.ledger.faulted := by simp [hu, armHeartbeat, arm]
  have hnext : u.ledger.nextRequestId = s.ledger.nextRequestId := by simp [hu, armHeartbeat, arm]
  rw [hopened, hnames]
  change (sendAll env (s.protocol.topics.map TopicRuntime.name) u).ledger.faulted = false ↔ _
  unfold OpensSafely
  cases hp : s.reconnectPending with
  | true =>
    rw [hp] at hlinked
    have hdead : u = armHeartbeat (openSession s) := by
      rw [hu, readNext, if_pos (.inr (.inr (by simpa [armHeartbeat, arm] using hlinked)))]
    rw [sendAll_dead_iff env hlisted (by simp [hdead, armHeartbeat, arm, hp]) (by simpa [hdead, armHeartbeat, arm] using hlinked),
      if_neg (by simp), hfaulted, hnext]
    simp
  | false =>
    rw [hp] at hlinked
    have hstarted : (armHeartbeat (openSession s)).started = true := by simpa [armHeartbeat, arm] using hs
    have hpending : (armHeartbeat (openSession s)).reconnectPending = false := by simpa [armHeartbeat, arm] using hp
    have hchannel : (armHeartbeat (openSession s)).channel = true := by simpa [armHeartbeat, arm] using hlinked
    have hgeneration : (armHeartbeat (openSession s)).generation = s.generation := by simp [armHeartbeat, arm]
    rw [← hgeneration] at hu
    cases hr : env.readRefusal with
    | none =>
      rw [readNext_kept env hstarted hchannel hr] at hu
      rw [sendAll_held_iff env hlisted (hu ▸ hstarted) (hu ▸ hpending) (hu ▸ hchannel), if_pos ⟨rfl, rfl⟩, hfaulted, hnext]
    | some reason =>
      rw [readNext_dropped env hstarted hchannel hr] at hu
      rw [sendAll_dead_iff env hlisted (hu ▸ scheduleReconnect_pending env reason hstarted)
        (hu ▸ scheduleReconnect_channel env reason hstarted hpending), if_neg (by simp), hfaulted, hnext]
      simp

theorem updateFreshnessState_faulted (s : PublicClient) : (updateFreshnessState s).ledger.faulted = s.ledger.faulted := by
  unfold updateFreshnessState
  split_ifs
  · rfl
  · dsimp only
    split_ifs <;> simp

theorem handleResponse_faulted (response : SubscriptionResponse) (s : PublicClient) :
    (handleResponse env response s).ledger.faulted = s.ledger.faulted := by
  unfold handleResponse
  split
  · simp
  · dsimp only
    split_ifs <;> simp [updateFreshnessState_faulted, forget, withTopics, withPending]

theorem handleData_faulted (message : PublicWsMessage) (s : PublicClient) :
    (handleData env message s).ledger.faulted = s.ledger.faulted := by
  unfold handleData
  split_ifs
  · simp
  · split
    · simp
    · dsimp only
      split_ifs <;> simp [updateFreshnessState_faulted, count, withTopics]

theorem handleMessage_faulted_iff (message : PublicWsMessage) (s : PublicClient) :
    (handleMessage env message s).ledger.faulted = false ↔
      s.ledger.faulted = false ∧ ∀ timestampMs, message = .heartbeat timestampMs → 0 < timestampMs → s.channel = true := by
  cases message with
  | heartbeat timestampMs => simp [handleMessage]
  | subscription response => simp [handleMessage, handleResponse_faulted]
  | unknown topic => simp [handleMessage]
  | _ => simp [handleMessage, handleData_faulted]

theorem received_faulted_iff (decode : FrameDecoder) (text : Bytes) (hs : s.started = true) :
    (received decode env s.generation (.ok text) s).ledger.faulted = false ↔
      s.ledger.faulted = false ∧ ∀ timestampMs, decode text (resolver s.protocol.topics) = .ok (.heartbeat timestampMs) →
        0 < timestampMs → s.channel = true := by
  rw [received, if_neg (by simp [hs])]
  dsimp only [count]
  cases hd : decode text (resolver s.protocol.topics) with
  | error error => simp
  | ok message =>
    dsimp only
    rw [readNext_faulted, handleMessage_faulted_iff]
    simp

/-- Every step that writes finds a channel: a heartbeat is echoed before the connection is given up, and the requests that
follow an open channel are taken. -/
def HoldsChannel (decode : FrameDecoder) (s : PublicClient) (input : Input × Env) : Prop :=
  match input.1 with
  | .received generation (.ok text) => Due (.reading generation) s → ∀ timestampMs,
    decode text (resolver s.protocol.topics) = .ok (.heartbeat timestampMs) → 0 < timestampMs → s.reconnectPending = false
  | .opened generation none => Due (.opening generation) s → OpensSafely input.2 s
  | _ => True

variable (options : ClientOptions)

theorem begin_faulted (topics : List PublicTopic) (s : PublicClient) :
    (begin options env topics s).ledger.faulted = s.ledger.faulted := by
  rcases begin_cases env options topics s with ⟨-, he⟩ | ⟨-, ⟨reason, enrolled, -, he⟩ | ⟨-, he⟩⟩
  · rw [he]
  · simp [he, withTopics]
  · simp [he, withTopics]

theorem sendSubscription_held (name : Bytes) (isSubscribe : Bool) (hc : s.channel = true) :
    (sendSubscription env name isSubscribe s).ledger.faulted = s.ledger.faulted := by
  unfold sendSubscription
  split
  · rfl
  · dsimp only
    split <;> simp [takeRequestId, withPending, hc]

theorem addTopic_faulted (topic : PublicTopic) (s : PublicClient) : (addTopic env topic s).ledger.faulted = s.ledger.faulted := by
  unfold addTopic
  split
  · simp
  · dsimp only
    split_ifs with hc ho
    · rfl
    · exact sendSubscription_held env _ _ ho.2.2
    · rfl

theorem removeTopic_faulted (topic : PublicTopic) (s : PublicClient) :
    (removeTopic env topic s).ledger.faulted = s.ledger.faulted := by
  unfold removeTopic
  split
  · rfl
  · split_ifs with hc ho
    · exact sendSubscription_held env _ _ ho.2.2
    · rfl
    · rfl

theorem ackExpired_faulted (generation : ℕ) (s : PublicClient) : (ackExpired env generation s).ledger.faulted = s.ledger.faulted := by
  unfold ackExpired
  split_ifs <;> simp

theorem opening_faulted_iff (decode : FrameDecoder) (h : Sound s) (generation : ℕ) (result : Option Bytes) :
    (completing (.opening generation) (opened env generation result) s).ledger.faulted = false ↔
      s.ledger.faulted = false ∧ HoldsChannel decode s (.opened generation result, env) := by
  have hidle : ∀ u : PublicClient, u.started = false ∨ generation ≠ u.generation → opened env generation result u = u :=
    fun u hu => by unfold opened; exact if_pos hu
  cases result with
  | some reason =>
    refine (completing_faulted_iff (C := True) hidle fun hdue ledger hl hn => ?_).trans (by simp [HoldsChannel])
    obtain ⟨-, hs, rfl⟩ := hdue
    rw [opened, if_neg (by simp [hs])]
    simp
  | none =>
    refine completing_faulted_iff hidle fun hdue ledger hl hn => ?_
    obtain ⟨-, hs, rfl⟩ := hdue
    have hsafe : OpensSafely env { s with ledger := ledger } ↔ OpensSafely env s := by simp only [OpensSafely, hn]
    rw [opened_faulted_iff env (h.ledger ledger hl) hs, hsafe]

theorem reading_faulted_iff (decode : FrameDecoder) (h : Sound s) (generation : ℕ) (result : Except Bytes Bytes) :
    (completing (.reading generation) (received decode env generation result) s).ledger.faulted = false ↔
      s.ledger.faulted = false ∧ HoldsChannel decode s (.received generation result, env) := by
  have hidle : ∀ u : PublicClient, u.started = false ∨ generation ≠ u.generation → received decode env generation result u = u :=
    fun u hu => by unfold received; exact if_pos hu
  cases result with
  | error reason =>
    refine (completing_faulted_iff (C := True) hidle fun hdue ledger hl hn => ?_).trans (by simp [HoldsChannel])
    obtain ⟨-, hs, rfl⟩ := hdue
    rw [received, if_neg (by simp [hs])]
    simp
  | ok text =>
    refine completing_faulted_iff hidle fun hdue ledger hl hn => ?_
    obtain ⟨-, hs, rfl⟩ := hdue
    have hchannel : s.channel = true ↔ s.reconnectPending = false := by simp [h.linked hs]
    rw [← hchannel]
    exact received_faulted_iff env (s := { s with ledger := ledger }) decode text hs

theorem handle_faulted_iff (decode : FrameDecoder) (h : Sound s) (input : Input) :
    (handle options decode env input s).ledger.faulted = false ↔
      s.ledger.faulted = false ∧ HoldsChannel decode s (input, env) := by
  cases input with
  | start topics => simp [handle, HoldsChannel, begin_faulted]
  | stop => simp [handle, HoldsChannel, requestStop]
  | subscribe topic => simp [handle, HoldsChannel, addTopic_faulted]
  | unsubscribe topic => simp [handle, HoldsChannel, removeTopic_faulted]
  | wrote generation result => simp [handle, HoldsChannel, completing_faulted]
  | reconnectExpired => simp [handle, HoldsChannel, expiring_faulted]
  | heartbeatExpired generation => simp [handle, HoldsChannel, expiring_faulted]
  | ackExpired generation => simp [handle, HoldsChannel, expiring_faulted, ackExpired_faulted]
  | pop => simp [handle, HoldsChannel]
  | opened generation result => exact opening_faulted_iff env decode h generation result
  | received generation result => exact reading_faulted_iff env decode h generation result

theorem never_null_iff (decode : FrameDecoder) (backoff : Net.ReconnectBackoff)
    (inputs : List (Input × Env)) :
    (∀ before, before <+: inputs →
        (Runs.run (step options decode) (initial options backoff) before).ledger.faulted = false) ↔
      Runs.Along (step options decode) (HoldsChannel decode) (initial options backoff) inputs := by
  refine never_faulted_iff Sound (fun s input hs => step_sound options decode hs input) ?_ ⟨Sound.initial options backoff, rfl⟩ inputs
  rintro s ⟨input, env⟩ hs hf
  refine (guarded_faulted_iff hf).trans ((handle_faulted_iff env options decode hs input).trans ?_)
  simp [hf]

end Public

namespace Private

open Client

variable (env : Env) {s t : PrivateClient}

def Asks (requestId : ℕ) : Prop :=
  ∃ c jwt outgoing, env.jwt = some (c :: jwt) ∧ encodeWalletSubscribeRequest requestId (c :: jwt) = .ok outgoing

theorem subscribe_faulted_iff (s : PrivateClient) :
    (subscribe env s).ledger.faulted = false ↔
      s.ledger.faulted = false ∧ (Asks env s.ledger.nextRequestId → s.channel = true) := by
  unfold subscribe Asks
  split
  · next h => simp [h]
  · next h => simp [h]
  · next c jwt h =>
    dsimp only
    split
    · next he => simp [h, he, takeRequestId]
    · next outgoing he => simp [h, he, takeRequestId]

theorem opened_faulted_iff (h : Sound s) (hs : s.started = true) :
    (opened env s.generation none s).ledger.faulted = false ↔
      s.ledger.faulted = false ∧
        (Asks env s.ledger.nextRequestId → s.reconnectPending = false ∧ env.readRefusal = none) := by
  rw [opened, if_neg (by simp [hs])]
  change (subscribe env (readNext protocol env s.generation (armHeartbeat (openSession s)))).ledger.faulted = false ↔ _
  rw [subscribe_faulted_iff, opened_channel env hs (h.linked hs)]
  simp [armHeartbeat, arm]

theorem handleResponse_faulted (response : SubscriptionResponse) (s : PrivateClient) :
    (handleResponse env response s).ledger.faulted = s.ledger.faulted := by
  unfold handleResponse
  split_ifs <;> simp [count]

theorem handleEvent_faulted (generation : ℕ) (event : WalletEvent) (s : PrivateClient) :
    (handleEvent env generation event s).ledger.faulted = s.ledger.faulted := by
  unfold handleEvent
  dsimp only
  split_ifs <;> simp [count]

variable (options : ClientOptions)

theorem received_faulted_iff (reader : WebsocketReader) (text : Bytes) (hs : s.started = true) :
    (received options reader env s.generation (.ok text) s).ledger.faulted = false ↔
      s.ledger.faulted = false ∧
        ∀ timestampMs, reader.decodePrivateWsFrame text options.decodeLimits = .ok (.heartbeat timestampMs) →
          0 < timestampMs.toInt → s.channel = true := by
  rw [received, if_neg (by simp [hs])]
  dsimp only [count]
  cases hd : reader.decodePrivateWsFrame text options.decodeLimits with
  | error error => simp
  | ok message =>
    cases message with
    | heartbeat timestampMs => simp
    | subscription response => simp [handleResponse_faulted]
    | walletEvent event => simp [handleEvent_faulted]

def HoldsChannel (options : ClientOptions) (reader : WebsocketReader) (s : PrivateClient) (input : Input × Env) : Prop :=
  match input.1 with
  | .received generation (.ok text) => Due (.reading generation) s → ∀ timestampMs,
    reader.decodePrivateWsFrame text options.decodeLimits = .ok (.heartbeat timestampMs) → 0 < timestampMs.toInt →
      s.reconnectPending = false
  | .opened generation none => Due (.opening generation) s → Asks input.2 s.ledger.nextRequestId →
    s.reconnectPending = false ∧ input.2.readRefusal = none
  | _ => True

theorem opening_faulted_iff (reader : WebsocketReader) (h : Sound s) (generation : ℕ)
    (result : Option Bytes) :
    (completing (.opening generation) (opened env generation result) s).ledger.faulted = false ↔
      s.ledger.faulted = false ∧ HoldsChannel options reader s (.opened generation result, env) := by
  have hidle : ∀ u : PrivateClient, u.started = false ∨ generation ≠ u.generation → opened env generation result u = u :=
    fun u hu => by unfold opened; exact if_pos hu
  cases result with
  | some reason =>
    refine (completing_faulted_iff (C := True) hidle fun hdue ledger hl hn => ?_).trans (by simp [HoldsChannel])
    obtain ⟨-, hs, rfl⟩ := hdue
    rw [opened, if_neg (by simp [hs])]
    simp
  | none =>
    refine completing_faulted_iff hidle fun hdue ledger hl hn => ?_
    obtain ⟨-, hs, rfl⟩ := hdue
    rw [opened_faulted_iff env (h.passive (Passive.of_ledger hl)) hs, hn]

theorem reading_faulted_iff (reader : WebsocketReader) (h : Sound s) (generation : ℕ)
    (result : Except Bytes Bytes) :
    (completing (.reading generation) (received options reader env generation result) s).ledger.faulted = false ↔
      s.ledger.faulted = false ∧ HoldsChannel options reader s (.received generation result, env) := by
  have hidle : ∀ u : PrivateClient, u.started = false ∨ generation ≠ u.generation →
      received options reader env generation result u = u := fun u hu => by unfold received; exact if_pos hu
  cases result with
  | error reason =>
    refine (completing_faulted_iff (C := True) hidle fun hdue ledger hl hn => ?_).trans (by simp [HoldsChannel])
    obtain ⟨-, hs, rfl⟩ := hdue
    rw [received, if_neg (by simp [hs])]
    simp
  | ok text =>
    refine completing_faulted_iff hidle fun hdue ledger hl hn => ?_
    obtain ⟨-, hs, rfl⟩ := hdue
    have hchannel : s.channel = true ↔ s.reconnectPending = false := by simp [h.linked hs]
    rw [← hchannel]
    exact received_faulted_iff env (s := { s with ledger := ledger }) options reader text hs

theorem begin_faulted (s : PrivateClient) :
    (begin options env s).ledger.faulted = s.ledger.faulted := by
  unfold begin
  split_ifs <;> simp

theorem reconcile_faulted (generation : ℕ) (s : PrivateClient) : (reconcile generation s).ledger.faulted = s.ledger.faulted := by
  unfold reconcile
  split_ifs <;> simp

theorem ackExpired_faulted (generation : ℕ) (s : PrivateClient) :
    (ackExpired env generation s).ledger.faulted = s.ledger.faulted := by
  unfold ackExpired
  split_ifs <;> simp

theorem handle_faulted_iff (reader : WebsocketReader) (h : Sound s) (input : Input) :
    (handle options reader env input s).ledger.faulted = false ↔
      s.ledger.faulted = false ∧ HoldsChannel options reader s (input, env) := by
  cases input with
  | start => simp [handle, HoldsChannel, begin_faulted]
  | stop => simp [handle, HoldsChannel, requestStop]
  | markReconciled generation => simp [handle, HoldsChannel, reconcile_faulted]
  | wrote generation result => simp [handle, HoldsChannel, completing_faulted]
  | reconnectExpired => simp [handle, HoldsChannel, expiring_faulted]
  | heartbeatExpired generation => simp [handle, HoldsChannel, expiring_faulted]
  | ackExpired generation => simp [handle, HoldsChannel, expiring_faulted, ackExpired_faulted]
  | pop => simp [handle, HoldsChannel]
  | opened generation result => exact opening_faulted_iff env options reader h generation result
  | received generation result => exact reading_faulted_iff env options reader h generation result

theorem never_null_iff (reader : WebsocketReader) (backoff : Net.ReconnectBackoff)
    (inputs : List (Input × Env)) :
    (∀ before, before <+: inputs →
        (Runs.run (step options reader) (initial options backoff) before).ledger.faulted = false) ↔
      Runs.Along (step options reader) (HoldsChannel options reader) (initial options backoff) inputs := by
  refine never_faulted_iff Sound (fun s input hs => step_sound options reader hs input) ?_ ⟨Sound.initial options backoff, rfl⟩ inputs
  rintro s ⟨input, env⟩ hs hf
  refine (guarded_faulted_iff hf).trans ((handle_faulted_iff env options reader hs input).trans ?_)
  simp [hf]

end Private

theorem channel_never_null_iff (options : ClientOptions) (backoff : Net.ReconnectBackoff) :
    (∀ (decode : FrameDecoder) (inputs : List (Public.Input × Env)),
      (∀ before, before <+: inputs →
          (Runs.run (Public.step options decode) (Public.initial options backoff) before).ledger.faulted = false) ↔
        Runs.Along (Public.step options decode) (Public.HoldsChannel decode) (Public.initial options backoff) inputs) ∧
    ∀ (reader : WebsocketReader) (inputs : List (Private.Input × Env)),
      (∀ before, before <+: inputs →
          (Runs.run (Private.step options reader) (Private.initial options backoff) before).ledger.faulted = false) ↔
        Runs.Along (Private.step options reader) (Private.HoldsChannel options reader) (Private.initial options backoff) inputs :=
  ⟨fun decode inputs => Public.never_null_iff options decode backoff inputs,
    fun reader inputs => Private.never_null_iff options reader backoff inputs⟩

/-- A heartbeat that was read before the heartbeat timer gave the connection up is echoed after it. -/
theorem heartbeat_echoed_on_null :
    (Runs.run (Public.step {} Public.testDecoder) (Public.initial {} (.ofPolicy {} 1))
      [(.start [Public.orderbook], {}), (.opened 1 none, {}), (.heartbeatExpired 1, {}),
        (.received 1 (.ok (heartbeatFrame 123456789)), {})]).ledger.faulted = true ∧
    (Runs.run (Private.step {} Private.testReader) (Private.initial {} (.ofPolicy {} 1))
      [(.start, {}), (.opened 1 none, {}), (.heartbeatExpired 1, {}),
        (.received 1 (.ok (heartbeatFrame 123456789)), {})]).ledger.faulted = true := by
  decide

end PredictFun.Wss
