import PredictFun.Wss.NullChannel

namespace PredictFun.Wss.Public

open Base Codec Client

variable {options : ClientOptions} {decode : FrameDecoder} {s t : PublicClient}

theorem names_emplace {name other : Bytes} {topic : PublicTopic} {topics : List TopicRuntime} :
    other ∈ (emplace name topic topics).map TopicRuntime.name ↔ other ∈ topics.map TopicRuntime.name ∨ other = name := by
  unfold emplace
  split_ifs with h
  · rw [contains_iff] at h
    exact ⟨.inl, fun hm => hm.elim id (fun he => he ▸ h)⟩
  · have hperm := (List.perm_orderedInsert (fun a b : TopicRuntime => a.name ≤ b.name) { name := name, topic := topic } topics).map
      TopicRuntime.name
    rw [hperm.mem_iff, List.map_cons, List.mem_cons, or_comm]

theorem names_enrol {topics : List PublicTopic} {unique : List Bytes} {admitted : List TopicRuntime}
    (h : (enrol topics unique admitted).2 = none) (name : Bytes) :
    name ∈ (enrol topics unique admitted).1.map TopicRuntime.name ↔
      name ∈ admitted.map TopicRuntime.name ∨ ∃ topic ∈ topics, publicTopicName topic = .ok name := by
  induction topics generalizing unique admitted with
  | nil => simp [enrol]
  | cons topic topics ih =>
    unfold enrol at h ⊢
    cases hn : publicTopicName topic with
    | error error => simp [hn] at h
    | ok other =>
      simp only [hn] at h ⊢
      split_ifs at h ⊢ with hu
      rw [ih h, names_emplace, or_assoc]
      simp [hn, eq_comm]

theorem names_renewed (h : Renewed protocol s t) :
    t.protocol.topics.map TopicRuntime.name = s.protocol.topics.map TopicRuntime.name ∧ t.protocol.pending = [] := by
  obtain ⟨ledger, ⟨rfl, -⟩ | ⟨reason, rfl, -⟩⟩ := h
  · simp only [renew_protocol, protocol, List.map_map, and_true]
    rfl
  · simp only [drop_protocol, renew_protocol, protocol, List.map_map, and_true]
    rfl

def Input.isCall : Input → Bool
  | .start _ | .stop | .subscribe _ | .unsubscribe _ => true
  | _ => false

structure Follows (names : List Bytes) (s : PublicClient) : Prop where
  names : s.protocol.topics.map TopicRuntime.name = names
  pending : ∀ request ∈ s.protocol.pending, request.subscribe = true

namespace Follows

variable {names : List Bytes} {reads : Bool}

theorem passive (h : Follows names s) (hp : Passive protocol reads s t) : Follows names t := by
  refine ⟨(names_passive hp).trans h.names, ?_⟩
  obtain ⟨ledger, -, rfl | ⟨-, -, reason, rfl⟩⟩ := hp
  · exact h.pending
  · simp [protocol]

theorem forget (h : Follows names s) (request : PendingRequest) : Follows names (Public.forget request s) :=
  ⟨h.names, fun other hm => h.pending other (List.mem_of_mem_filter hm)⟩

theorem modify (h : Follows names s) (name : Bytes) (update : TopicRuntime → TopicRuntime)
    (hu : ∀ runtime, (update runtime).name = runtime.name) : Follows names (withTopics (Public.modify name update) s) :=
  ⟨(names_modify name update hu _).trans h.names, h.pending⟩

theorem announce (h : Follows names s) : Follows names (Public.announce s) :=
  ⟨by simpa using h.names, by simpa using h.pending⟩

theorem digest (h : Follows names s) {message : PublicWsMessage} (hd : Digest s message t) : Follows names t := by
  cases hd with
  | passive hp => exact h.passive hp
  | rejected hm hp => exact (h.forget _).passive hp
  | @acknowledged _ request hm hid hok hs ledger hl =>
    have ha := ((h.forget request).modify request.topicName acknowledge (fun _ => rfl)).announce
    exact ⟨ha.names, ha.pending⟩
  | erased hm hid hok hs ledger hl =>
    rw [h.pending _ hm] at hs
    cases hs
  | unknown ledger hl => exact ⟨by simpa using h.names, by simpa using h.pending⟩
  | @accepted _ runtime hr ho ledger hl _ hu hf =>
    subst hu
    have ha := (h.modify runtime.name (refresh message) (fun _ => rfl)).announce
    exact ⟨ha.names, ha.pending⟩
  | @refused _ runtime hr ho u _ hu hf ledger hl ht hp =>
    subst hu
    have ha := (h.modify runtime.name (refresh message) (fun _ => rfl)).announce
    refine Follows.passive ?_ ht
    exact ⟨ha.names, ha.pending⟩

theorem move (h : Follows names s) {input : Input} (hc : input.isCall = false) (hm : Move decode s input t) : Follows names t := by
  cases hm with
  | passive hp => exact h.passive hp
  | pop => exact ⟨h.names, h.pending⟩
  | reconnect hs hr =>
    obtain ⟨hnames, hpending⟩ := names_renewed hr
    exact ⟨hnames.trans h.names, by simp [hpending]⟩
  | idle ledger hs hl => exact ⟨h.names, h.pending⟩
  | opened hs hg hf hr hd hp =>
    refine Follows.passive ⟨by simpa [withPending] using h.names, fun request hm => ?_⟩ hp
    rcases List.mem_append.mp hm with hm | hm
    · exact h.pending request (by simpa using hm)
    · exact hr request hm
  | frame hs hg hf hm hd hp => exact (h.digest hd).passive hp
  | stop | refused | start | degraded | added | removed | withdrawn => cases hc

end Follows

def subscriptions (generation : ℕ) : ℕ → List Bytes → List (ℕ × Outgoing)
  | _, [] => []
  | requestId, name :: names => (generation, .subscribe requestId name) :: subscriptions generation (requestId + 1) names

theorem mem_subscriptions {generation requestId : ℕ} {names : List Bytes} {name : Bytes} :
    (∃ id, (generation, .subscribe id name) ∈ subscriptions generation requestId names) ↔ name ∈ names := by
  induction names generalizing requestId with
  | nil => simp [subscriptions]
  | cons first names ih => simp [subscriptions, exists_or, ih]

theorem sendAll_written (env : Env) {names : List Bytes} (h : Listed names s) (hc : s.channel = true)
    (hw : ∀ outgoing, env.writeRefusal outgoing = none) (hid : s.ledger.nextRequestId + names.length ≤ maxRequestId + 1) :
    (sendAll env names s).ledger.written = s.ledger.written ++ subscriptions s.generation s.ledger.nextRequestId names := by
  induction names generalizing s with
  | nil => simp [sendAll, subscriptions]
  | cons name names ih =>
    have hsend := sendSubscription_eq env true h.named (h.listed name List.mem_cons_self)
    rw [if_neg (by simp at hid; omega)] at hsend
    change (sendAll env names (sendSubscription env name true s)).ledger.written = _
    rw [hsend]
    obtain ⟨u, hu⟩ : ∃ u, u = withPending (· ++ [⟨s.ledger.nextRequestId, true, name⟩]) s.takeRequestId := ⟨_, rfl⟩
    have hchannel : u.channel = true := by rw [hu]; exact hc
    have hnext : u.ledger.nextRequestId = s.ledger.nextRequestId + 1 := by rw [hu]; rfl
    have hwritten : u.ledger.written = s.ledger.written := by rw [hu]; rfl
    have hgeneration : u.generation = s.generation := by rw [hu]; rfl
    have hlisted : Listed names u := by rw [hu]; exact ⟨h.named, h.tail.listed⟩
    rw [← hu]
    obtain ⟨ledger, he, -, hn, hl⟩ := write_kept env (P := protocol) hchannel (hw (requestOf true s.ledger.nextRequestId name))
    rw [he, ih (s := { u with ledger := ledger }) ⟨hlisted.named, hlisted.listed⟩ hchannel (by simp at hid; dsimp only; omega)]
    simp only [hl, hn, hnext, hwritten, hgeneration, List.append_assoc]
    rfl

theorem opened_written (env : Env) (h : Sound s) (hs : s.started = true) (hp : s.reconnectPending = false)
    (hr : env.readRefusal = none) (hw : ∀ outgoing, env.writeRefusal outgoing = none)
    (hid : s.ledger.nextRequestId + s.protocol.topics.length ≤ maxRequestId + 1) :
    (opened env s.generation none s).ledger.written =
      s.ledger.written ++ subscriptions s.generation s.ledger.nextRequestId (s.protocol.topics.map TopicRuntime.name) := by
  have hchannel : (armHeartbeat (openSession s)).channel = true := by simpa [armHeartbeat, arm, hp] using h.linked hs
  have hread := readNext_kept env (P := protocol) (s := armHeartbeat (openSession s)) (by simpa [armHeartbeat, arm] using hs) hchannel hr
  have hgeneration : (armHeartbeat (openSession s)).generation = s.generation := by simp [armHeartbeat, arm]
  rw [hgeneration] at hread
  rw [opened, if_neg (by simp [hs])]
  dsimp only
  rw [hread]
  have hlisted : Listed (s.protocol.topics.map TopicRuntime.name) ((armHeartbeat (openSession s)).owe (.reading s.generation)) := by
    refine ⟨by simpa [owe, armHeartbeat, arm] using h.named, fun name hm => ?_⟩
    simpa [owe, armHeartbeat, arm, contains_iff] using hm
  have hsend := sendAll_written env hlisted hchannel hw (by simpa [owe, armHeartbeat, arm] using hid)
  simpa [owe, armHeartbeat, armAckTimeout, arm] using hsend

theorem sendable_of_taken {env : Env} (hw : ∀ outgoing, env.writeRefusal outgoing = none) (names : List Bytes) (requestId : ℕ) :
    Sendable env requestId names := by
  induction names generalizing requestId with
  | nil => trivial
  | cons name names ih =>
    refine .inr ?_
    rw [if_pos (hw _)]
    exact ih (requestId + 1)

theorem open_step_written (options : ClientOptions) (decode : FrameDecoder) (env : Env) (h : Sound s)
    (hdue : Due (.opening s.generation) s) (hf : s.ledger.faulted = false) (hp : s.reconnectPending = false)
    (hr : env.readRefusal = none) (hw : ∀ outgoing, env.writeRefusal outgoing = none)
    (hid : s.ledger.nextRequestId + s.protocol.topics.length ≤ maxRequestId + 1) :
    (step options decode s (.opened s.generation none, env)).ledger.written =
      s.ledger.written ++ subscriptions s.generation s.ledger.nextRequestId (s.protocol.topics.map TopicRuntime.name) := by
  have hsafe : HoldsChannel decode s (.opened s.generation none, env) := by
    intro _
    unfold OpensSafely
    rw [if_pos ⟨hp, hr⟩]
    exact sendable_of_taken hw _ _
  have hheld := (opening_faulted_iff env decode h s.generation none).mpr ⟨hf, hsafe⟩
  obtain ⟨ledger, hledger⟩ : ∃ ledger : Ledger,
      ledger = { s.ledger with inFlight := s.ledger.inFlight.erase (.opening s.generation) } := ⟨_, rfl⟩
  have howed : Owed false s ledger := fun operation hm => .inl (List.mem_of_mem_erase (hledger ▸ hm))
  have hopened := opened_written env (h.ledger ledger howed) hdue.2.1 hp hr hw (by simpa [hledger] using hid)
  have hstep : step options decode s (.opened s.generation none, env) = opened env s.generation none { s with ledger := ledger } := by
    rw [step_eq options decode (.opened s.generation none) env hf hheld]
    simp only [handle, completing, if_pos hdue.1, hledger]
  rw [hstep, hopened]
  simp [hledger]

section

variable (options decode) (backoff : Net.ReconnectBackoff)

def after (inputs : List (Input × Env)) : PublicClient := Runs.run (step options decode) (initial options backoff) inputs

theorem started_names {topics : List PublicTopic} {env : Env} (hs : s.started = false)
    (ha : (step options decode s (.start topics, env)).started = true) :
    Follows ((enrol topics [] s.protocol.topics).1.map TopicRuntime.name) (step options decode s (.start topics, env)) ∧
      (enrol topics [] s.protocol.topics).2 = none := by
  obtain ⟨t, ht⟩ : ∃ t, t = step options decode s (.start topics, env) := ⟨_, rfl⟩
  have hm := step_move options decode s (.start topics, env)
  rw [← ht] at ha hm ⊢
  cases hm with
  | passive hp =>
    rw [hp.started, hs] at ha
    cases ha
  | refused hs he => simp at ha
  | start hs he hr =>
    obtain ⟨hnames, hpending⟩ := names_renewed hr
    exact ⟨⟨hnames, by simp [hpending]⟩, he⟩

theorem restart_subscribes_iff (history later : List (Input × Env)) (topics : List PublicTopic) (env envOpen : Env)
    (hs : (after options decode backoff history).started = false)
    (ha : (after options decode backoff (history ++ [(.start topics, env)])).started = true)
    (hl : ∀ input ∈ later, input.1.isCall = false) {t : PublicClient}
    (ht : t = after options decode backoff (history ++ (.start topics, env) :: later))
    (hdue : Due (.opening t.generation) t) (hf : t.ledger.faulted = false) (hp : t.reconnectPending = false)
    (hr : envOpen.readRefusal = none) (hw : ∀ outgoing, envOpen.writeRefusal outgoing = none)
    (hid : t.ledger.nextRequestId + t.protocol.topics.length ≤ maxRequestId + 1) :
    (∀ name, (∃ id, (t.generation, .subscribe id name) ∈
        (step options decode t (.opened t.generation none, envOpen)).ledger.written.drop t.ledger.written.length) ↔
      ∃ topic ∈ topics, publicTopicName topic = .ok name) ↔
    ∀ runtime ∈ (after options decode backoff history).protocol.topics, ∃ topic ∈ topics, publicTopicName topic = .ok runtime.name := by
  have hsound : Sound t := ht ▸ run_sound options decode backoff _
  unfold after at hs ha ht ⊢
  rw [Runs.run_append] at ha ht
  obtain ⟨hfollows, he⟩ := started_names options decode hs ha
  have hnames : Follows ((enrol topics [] (Runs.run (step options decode) (initial options backoff) history).protocol.topics).1.map
      TopicRuntime.name) t := by
    rw [ht, Runs.run_cons]
    exact Runs.run_invariant (step options decode) (fun s input hi hc => hi.move hc (step_move options decode s input)) hfollows
      (Runs.along_of_forall _ hl _)
  rw [open_step_written options decode envOpen hsound hdue hf hp hr hw hid, List.drop_left]
  simp only [mem_subscriptions, hnames.names, names_enrol he]
  constructor
  · intro h runtime hm
    exact (h runtime.name).mp (.inl (List.mem_map_of_mem hm))
  · intro h name
    refine ⟨fun hm => hm.elim (fun hm => ?_) id, .inr⟩
    obtain ⟨runtime, hr, rfl⟩ := List.mem_map.mp hm
    exact h runtime hr

end

def stoppedRun : List (Input × Env) := [(.start [orderbook], {}), (.stop, {})]

def refusedRun : List (Input × Env) := [(.start [orderbook, orderbook], {})]

def startOther : List (Input × Env) := [(.start [marketChanged], {})]

theorem leftover_topics_subscribed :
    (shortRun 8 (stoppedRun ++ startOther ++ [(.opened 2 none, ({} : Env))])).ledger.written =
      [(2, .subscribe 1 (ascii "predictMarketChanged/43")), (2, .subscribe 2 (ascii "predictOrderbook/42"))] ∧
    (shortRun 8 (refusedRun ++ startOther ++ [(.opened 1 none, ({} : Env))])).ledger.written =
      [(1, .subscribe 1 (ascii "predictMarketChanged/43")), (1, .subscribe 2 (ascii "predictOrderbook/42"))] := by
  constructor <;> decide +kernel

theorem kept_topic_subscribed_again :
    (shortRun 8 stoppedRun).started = false ∧ ∀ name, (∃ id, (2, .subscribe id name) ∈ (step { maxPendingEvents := 8 } shortDecoder
        (shortRun 8 (stoppedRun ++ [(.start [orderbook], ({} : Env))])) (.opened 2 none, {})).ledger.written.drop 0) ↔
      ∃ topic ∈ [orderbook], publicTopicName topic = .ok name := by
  have hnames : ∀ runtime ∈ (shortRun 8 stoppedRun).protocol.topics, ∃ topic ∈ [orderbook], publicTopicName topic = .ok runtime.name := by
    decide
  exact ⟨by decide, (restart_subscribes_iff { maxPendingEvents := 8 } shortDecoder (.ofPolicy {} 1) stoppedRun [] [orderbook] {} {}
    (by decide) (by decide) (by simp) rfl ⟨by decide +kernel, by decide +kernel, rfl⟩ (by decide)
    (by decide +kernel) rfl (fun _ => rfl) (by decide)).mpr hnames⟩

end PredictFun.Wss.Public
