import PredictFun.Wss.PrivateSound
import PredictFun.Wss.PublicSound

namespace PredictFun.Wss

open Base Codec

namespace Client

variable {π δ : Type} {P : Protocol π} {s t : Client π δ} {reads : Bool} {payload : δ} {generation : ℕ}

def Gap (s : Client π δ) : Prop := ∃ payload, .data payload s.generation ∈ s.queue.lost

def Crowded (s : Client π δ) : Prop := s.queue.full = true ∧ ∃ payload, .data payload s.generation ∈ s.queue.waiting

def Dated (s : Client π δ) : Prop :=
  ∀ payload generation, .data payload generation ∈ s.queue.lost ∨ .data payload generation ∈ s.queue.waiting →
    generation ≤ s.generation

section

variable {value : StreamState} {reason : Bytes} {force : Bool}

theorem setState_queue (value : StreamState) (reason : Bytes) (force : Bool) (s : Client π δ) :
    (setState value reason force s).queue = s.queue ∨
      (setState value reason force s).queue =
        s.queue.force (.state .degraded (ascii "state queue overflow") s.generation) (.state value reason s.generation) := by
  unfold setState
  split_ifs
  · exact .inl rfl
  · exact .inr rfl

theorem data_lost_setState (h : .data payload generation ∈ (setState value reason force s).queue.lost) :
    .data payload generation ∈ s.queue.lost ∨ s.queue.full = true ∧ .data payload generation ∈ s.queue.waiting := by
  rcases setState_queue value reason force s with hq | hq
  · rw [hq] at h
    exact .inl h
  · rw [hq, EventQueue.lost_force] at h
    split_ifs at h with hf
    · exact (List.mem_append.mp h).imp_right (fun h => ⟨hf, h⟩)
    · exact .inl h

theorem data_waiting_setState (h : .data payload generation ∈ (setState value reason force s).queue.waiting) :
    .data payload generation ∈ s.queue.waiting := by
  rcases setState_queue value reason force s with hq | hq
  · rwa [hq] at h
  · rw [hq, EventQueue.force] at h
    split_ifs at h
    · simp at h
    · simpa [EventQueue.push] using h

end

theorem Dated.set_state (h : Dated s) (value : StreamState) (reason : Bytes) (force : Bool) :
    Dated (setState value reason force s) := by
  intro payload generation hm
  rw [setState_generation]
  refine h payload generation ?_
  rcases hm with hm | hm
  · exact (data_lost_setState hm).imp_right (·.2)
  · exact .inr (data_waiting_setState hm)

theorem Dated.drop (h : Dated s) (reason : Bytes) : Dated (drop P reason s) :=
  Dated.set_state (s := { s with reconnectPending := true, channel := false, sessionOpen := false, protocol := P.reset s.protocol })
    h _ _ _

/-- The losses of a client are of the past, or it is about to resynchronize. -/
structure Accounted (s : Client π δ) : Prop where
  dated : Dated s
  resyncs : Gap s → s.started = true → s.reconnectPending = true

theorem along_of_room {κ : Type} (step : Client π δ → κ → Client π δ) (A : Client π δ → κ → Prop) {inputs : List κ}
    (h : ∀ before ∈ inputs.dropLast.inits, (Runs.run step s before).queue.full = false) :
    Runs.Along step (fun s input => A s input → ¬Crowded s) s inputs := by
  refine Runs.along_mono step (fun s input hroom _ hc => ?_) (Runs.along_of_inits step (C := fun s => s.queue.full = false) h)
  rw [hc.1] at hroom
  cases hroom

namespace Accounted

theorem passive (h : Accounted s) (hp : Passive P reads s t) : Accounted t := by
  refine hp.keeps (fun _ _ h => ⟨h.dated, h.resyncs⟩) (fun s reason h _ _ => ⟨h.dated.drop reason, fun _ _ => ?_⟩) h
  exact drop_reconnectPending P s reason

theorem of_pending (h : Dated s) (hp : Passive P reads s t) (hr : t.reconnectPending = true) : Accounted t :=
  ⟨hp.keeps (fun _ _ h => h) (fun _ reason h _ _ => h.drop reason) h, fun _ _ => hr⟩

theorem set_state (h : Accounted s) (value : StreamState) (reason : Bytes) (force : Bool) (hc : ¬Crowded s) :
    Accounted (setState value reason force s) := by
  refine ⟨h.dated.set_state value reason force, ?_⟩
  rintro ⟨payload, hm⟩
  rw [setState_generation] at hm
  rw [setState_started, setState_reconnectPending]
  rcases data_lost_setState hm with hm | ⟨hf, hm⟩
  · exact h.resyncs ⟨payload, hm⟩
  · exact absurd ⟨hf, payload, hm⟩ hc

theorem hard_stop (h : Accounted s) (reason : Bytes) : Accounted (hardStop P reason s) := by
  refine ⟨?_, fun _ hs => by simp at hs⟩
  exact Dated.set_state (s := { s with
    started := false, sessionOpen := false, reconnectPending := false, channel := false, protocol := P.clear s.protocol }) h.dated _ _ _

theorem renewed (h : Dated s) (hr : Renewed P s t) : Accounted t := by
  have hdated : Dated (renew P s) := by
    refine Dated.set_state (s := { s with reconnectPending := false, generation := s.generation + 1, sessionOpen := _, protocol := _ })
      (fun payload generation hm => ?_) _ _ _
    exact (h payload generation hm).trans (Nat.le_succ _)
  obtain ⟨ledger, ⟨rfl, -⟩ | ⟨reason, rfl, -⟩⟩ := hr
  · refine ⟨hdated, ?_⟩
    rintro ⟨payload, hm⟩
    -- what is lost is of an earlier generation
    simp only [renew_generation] at hm
    have := h payload (s.generation + 1) ((data_lost_setState hm).imp_right (·.2))
    omega
  · exact ⟨hdated.drop reason, fun _ _ => by simp⟩

theorem pop (h : Accounted s) : Accounted { s with queue := s.queue.pop } := by
  constructor
  · intro payload generation hm
    refine h.dated payload generation ?_
    rw [EventQueue.lost_pop] at hm
    exact hm.imp_right EventQueue.mem_of_mem_pop
  · rintro ⟨payload, hm⟩
    rw [EventQueue.lost_pop] at hm
    exact h.resyncs ⟨payload, hm⟩

theorem push (h : Accounted s) (payload : δ) : Accounted { s with queue := s.queue.push (.data payload s.generation) } := by
  constructor
  · intro other generation hm
    rw [EventQueue.lost_push] at hm
    simp only [EventQueue.waiting_push, List.mem_append, List.mem_singleton, StreamEvent.data.injEq] at hm
    rcases hm with hm | hm | ⟨-, rfl⟩
    · exact h.dated other generation (.inl hm)
    · exact h.dated other generation (.inr hm)
    · exact le_refl _
  · rintro ⟨other, hm⟩
    rw [EventQueue.lost_push] at hm
    exact h.resyncs ⟨other, hm⟩

end Accounted

theorem Dated.refuse (h : Dated s) (payload : δ) : Dated { s with queue := s.queue.refuse (.data payload s.generation) } := by
  intro other generation hm
  rw [EventQueue.lost_refuse, EventQueue.waiting_refuse] at hm
  simp only [List.mem_append, List.mem_singleton, StreamEvent.data.injEq] at hm
  rcases hm with (hm | ⟨-, rfl⟩) | hm
  · exact h other generation (.inl hm)
  · exact le_refl _
  · exact h other generation (.inr hm)

end Client

namespace Public

open Client

variable {s t : PublicClient}

def answered (request : PendingRequest) (topics : List TopicRuntime) : List TopicRuntime :=
  if request.subscribe then modify request.topicName acknowledge topics else erase request.topicName topics

def Shifts (s : PublicClient) (message : PublicWsMessage) : Prop :=
  (∃ topic, message = .unknown topic) ∨
  (∃ response, message = .subscription response ∧ response.success = true ∧ ∃ request ∈ s.protocol.pending,
    request.requestId = response.requestId.toNat ∧ (freshness (answered request s.protocol.topics)).1 ≠ s.state) ∨
  ∃ runtime, route message s.protocol.topics = some runtime ∧
    (freshness (modify runtime.name (refresh message) s.protocol.topics)).1 ≠ s.state

def Announces (decode : FrameDecoder) (s : PublicClient) (input : Input) : Prop :=
  match input with
  | .opened generation none => Due (.opening generation) s
  | .subscribe topic => ∃ error, publicTopicName topic = .error error
  | .received generation (.ok text) => Due (.reading generation) s ∧
    ∃ message, decode text (resolver s.protocol.topics) = .ok message ∧ Shifts s message
  | _ => False

theorem announce_settled (h : (freshness s.protocol.topics).1 = s.state) : announce s = s := if_pos ⟨rfl, h.symm⟩

theorem accounted_announce (h : Accounted s) (hc : (freshness s.protocol.topics).1 ≠ s.state → ¬Crowded s) :
    Accounted (announce s) := by
  by_cases hs : (freshness s.protocol.topics).1 = s.state
  · rwa [announce_settled hs]
  · exact h.set_state _ _ _ (hc hs)

theorem accounted_digest (h : Accounted s) {message : PublicWsMessage} (hc : Shifts s message → ¬Crowded s)
    (hd : Digest s message t) : Accounted t := by
  cases hd with
  | passive hp => exact h.passive hp
  | rejected hm hp => exact Accounted.passive (s := forget _ s) ⟨h.dated, h.resyncs⟩ hp
  | @acknowledged response request hm hid hok hsub ledger hl =>
    have ha := accounted_announce (s := withTopics (modify request.topicName acknowledge) (forget request s))
      ⟨h.dated, h.resyncs⟩ (fun hs => hc (.inr (.inl ⟨response, rfl, hok, request, hm, hid, by rwa [answered, if_pos hsub]⟩)))
    exact ⟨ha.dated, ha.resyncs⟩
  | @erased response request hm hid hok hsub ledger hl =>
    have ha := accounted_announce (s := withTopics (erase request.topicName) (forget request s))
      ⟨h.dated, h.resyncs⟩ (fun hs => hc (.inr (.inl ⟨response, rfl, hok, request, hm, hid, by rwa [answered, if_neg (by simp [hsub])]⟩)))
    exact ⟨ha.dated, ha.resyncs⟩
  | @unknown topic reason ledger hl =>
    have hu := h.set_state .degraded reason true (hc (.inl ⟨topic, rfl⟩))
    exact ⟨hu.dated, hu.resyncs⟩
  | @accepted _ runtime hr ho ledger hl u hu hf =>
    have ha : Accounted u := by
      rw [hu]
      exact accounted_announce (s := withTopics (modify runtime.name (refresh message)) s) ⟨h.dated, h.resyncs⟩
        (fun hs => hc (.inr (.inr ⟨runtime, hr, hs⟩)))
    have hq := ha.push ⟨runtime.topic, message, true⟩
    exact ⟨hq.dated, hq.resyncs⟩
  | @refused _ runtime hr ho u _ hu hf ledger hl ht hp =>
    have hdated : Dated u := by
      rw [hu]
      exact Dated.set_state (s := withTopics (modify runtime.name (refresh message)) s) h.dated _ _ _
    exact Accounted.of_pending (s := { u with queue := _, ledger := ledger })
      (hdated.refuse ⟨runtime.topic, message, true⟩) ht hp

theorem accounted_move (h : Accounted s) {decode : FrameDecoder} {input : Input} (hc : Announces decode s input → ¬Crowded s)
    (hm : Move decode s input t) : Accounted t := by
  cases hm with
  | passive hp => exact h.passive hp
  | pop => exact h.pop
  | stop => exact h.hard_stop _
  | refused hs he => exact Accounted.hard_stop (s := withTopics _ s) ⟨h.dated, h.resyncs⟩ _
  | start hs he hr => exact Accounted.renewed (s := { withTopics _ s with started := true }) h.dated hr
  | reconnect hs hr => exact Accounted.renewed h.dated hr
  | idle ledger hs hl => exact ⟨h.dated, fun _ hs' => by simp [hs] at hs'⟩
  | opened hs hg hf hr hd hp =>
    have ho := Accounted.set_state (s := { s with sessionOpen := true }) ⟨h.dated, h.resyncs⟩ .subscribing
      (ascii "connected; subscribing") true (hc ⟨hf, hs, hg⟩)
    exact Accounted.passive (s := withPending _ (openSession s)) ⟨ho.dated, ho.resyncs⟩ hp
  | frame hs hg hf hm hd hp =>
    exact (accounted_digest h (fun hshift => hc ⟨⟨hf, hs, hg⟩, _, hm, hshift⟩) hd).passive hp
  | degraded hn => exact h.set_state _ _ _ (hc ⟨_, hn⟩)
  | added hn hnew hr ho hp => exact Accounted.passive (s := withPending _ (withTopics _ s)) ⟨h.dated, h.resyncs⟩ hp
  | removed hn hin ho => exact ⟨h.dated, h.resyncs⟩
  | withdrawn hn hin ho hr hp => exact Accounted.passive (s := withPending _ s) ⟨h.dated, h.resyncs⟩ hp

theorem run_accounted {options : ClientOptions} {decode : FrameDecoder} {backoff : Net.ReconnectBackoff}
    {inputs : List (Input × Env)}
    (h : Runs.Along (step options decode) (fun s input => Announces decode s input.1 → ¬Crowded s) (initial options backoff) inputs) :
    Accounted (Runs.run (step options decode) (initial options backoff) inputs) :=
  Runs.run_invariant (step options decode) (I := Accounted)
    (fun s input hi hc => accounted_move hi hc (step_move options decode s input))
    ⟨fun _ _ hm => by simp [initial, EventQueue.lost] at hm, fun _ hs => nomatch hs⟩ h

end Public

namespace Private

open Client

variable {s t : PrivateClient} {options : ClientOptions} {reader : WebsocketReader}

def Announces (options : ClientOptions) (reader : WebsocketReader) (s : PrivateClient) (input : Input) : Prop :=
  match input with
  | .opened generation none => Due (.opening generation) s
  | .markReconciled generation => s.started = true ∧ generation = s.generation ∧ s.sessionOpen = true ∧
    s.state = .reconciliationRequired
  | .received generation (.ok text) => Due (.reading generation) s ∧ ∃ response,
    reader.decodePrivateWsFrame text options.decodeLimits = .ok (.subscription response) ∧ response.success = true ∧
      s.protocol.awaitingAck = true ∧ response.requestId.toNat = s.protocol.pendingRequestId
  | _ => False

theorem accounted_open (h : Accounted s) (hc : ¬Crowded s) : Accounted (openSession s) :=
  Accounted.set_state (s := { s with sessionOpen := true }) ⟨h.dated, h.resyncs⟩ _ _ _ hc

theorem accounted_move (h : Accounted s) {input : Input} (hc : Announces options reader s input → ¬Crowded s)
    (hm : Move options reader s input t) : Accounted t := by
  cases hm with
  | passive hp => exact h.passive hp
  | pop => exact h.pop
  | stop => exact h.hard_stop _
  | refused hs => exact h.hard_stop _
  | start hs hr => exact Accounted.renewed (s := { s with started := true }) h.dated hr
  | reconnect hs hr => exact Accounted.renewed h.dated hr
  | idle ledger hs hl => exact ⟨h.dated, fun _ hs' => by simp [hs] at hs'⟩
  | opened hs hg hf hp => exact (accounted_open h (hc ⟨hf, hs, hg⟩)).passive hp
  | subscribed hs hg hf _ hp =>
    have ho := accounted_open h (hc ⟨hf, hs, hg⟩)
    exact Accounted.passive (s := withProtocol _ (openSession s)) ⟨ho.dated, ho.resyncs⟩ hp
  | frame hs hg hf hm hd =>
    cases hd with
    | passive hp => exact h.passive hp
    | rejected hp => exact Accounted.passive (s := withProtocol _ s) ⟨h.dated, h.resyncs⟩ hp
    | acknowledged ha hid hok hp =>
      refine Accounted.passive ?_ hp
      exact Accounted.set_state (s := withProtocol _ s) ⟨h.dated, h.resyncs⟩ _ _ _
        (hc ⟨⟨hf, hs, hg⟩, _, hm, hok, ha, hid⟩)
    | accepted _ hp => exact (h.push _).passive hp
    | refused _ hp hr => exact Accounted.of_pending (h.dated.refuse _) hp hr
  | reconciled ledger hs hg hopen hstate hl =>
    have hlive : Accounted (goLive s) :=
      Accounted.set_state (s := withProtocol _ s) ⟨h.dated, h.resyncs⟩ _ _ _ (hc ⟨hs, hg, hopen, hstate⟩)
    exact ⟨hlive.dated, hlive.resyncs⟩

theorem run_accounted {backoff : Net.ReconnectBackoff} {inputs : List (Input × Env)}
    (h : Runs.Along (step options reader) (fun s input => Announces options reader s input.1 → ¬Crowded s)
      (initial options backoff) inputs) :
    Accounted (Runs.run (step options reader) (initial options backoff) inputs) :=
  Runs.run_invariant (step options reader) (I := Accounted)
    (fun s input hi hc => accounted_move hi hc (step_move options reader s input))
    ⟨fun _ _ hm => by simp [initial, EventQueue.lost] at hm, fun _ hs => nomatch hs⟩ h

end Private

/-- Both clients: when no state is announced on a full queue that holds data of the current generation, a client that has
lost a data event is not live again in the generation of the event. -/
theorem lost_events_resync (options : ClientOptions) (backoff : Net.ReconnectBackoff) :
    (∀ (decode : FrameDecoder) (inputs : List (Public.Input × Env)),
      Runs.Along (Public.step options decode) (fun s input => Public.Announces decode s input.1 → ¬Client.Crowded s)
        (Public.initial options backoff) inputs →
      ∀ before after payload generation, before ++ after <+: inputs →
        .data payload generation ∈ (Runs.run (Public.step options decode) (Public.initial options backoff) before).queue.lost →
        (Runs.run (Public.step options decode) (Public.initial options backoff) (before ++ after)).generation = generation →
        (Runs.run (Public.step options decode) (Public.initial options backoff) (before ++ after)).state ≠ .live) ∧
    (∀ (reader : WebsocketReader) (inputs : List (Private.Input × Env)),
      Runs.Along (Private.step options reader) (fun s input => Private.Announces options reader s input.1 → ¬Client.Crowded s)
        (Private.initial options backoff) inputs →
      ∀ before after payload generation, before ++ after <+: inputs →
        .data payload generation ∈ (Runs.run (Private.step options reader) (Private.initial options backoff) before).queue.lost →
        (Runs.run (Private.step options reader) (Private.initial options backoff) (before ++ after)).generation = generation →
        (Runs.run (Private.step options reader) (Private.initial options backoff) (before ++ after)).state ≠ .live) ∧
    ∀ (reader : WebsocketReader) (before : List (Private.Input × Env)) (input : Private.Input × Env),
      (Runs.run (Private.step options reader) (Private.initial options backoff) before).state ≠ .live →
      (Runs.run (Private.step options reader) (Private.initial options backoff) (before ++ [input])).state = .live →
      input.1 = .markReconciled (Runs.run (Private.step options reader) (Private.initial options backoff) before).generation := by
  refine ⟨?_, ?_, ?_⟩
  · rintro decode inputs halong before after payload generation ⟨later, rfl⟩ hlost rfl hlive
    have haccounted := Public.run_accounted ((Runs.along_append _ _ _ _ _).mp halong).1
    obtain ⟨hstarted, hpending, -⟩ := (Public.run_sound options decode backoff (before ++ after)).live hlive
    have hgap := haccounted.resyncs ⟨payload, EventQueue.lost_mono ?_ hlost⟩ hstarted
    · rw [hgap] at hpending
      cases hpending
    · rw [Runs.run_append]
      exact (Public.run_queue options decode _ after).history
  · rintro reader inputs halong before after payload generation ⟨later, rfl⟩ hlost rfl hlive
    have haccounted := Private.run_accounted ((Runs.along_append _ _ _ _ _).mp halong).1
    obtain ⟨hstarted, hpending⟩ := (Private.run_sound options reader backoff (before ++ after)).active (.inr hlive)
    have hgap := haccounted.resyncs ⟨payload, EventQueue.lost_mono ?_ hlost⟩ hstarted
    · rw [hgap] at hpending
      cases hpending
    · rw [Runs.run_append]
      exact (Private.run_queue options reader _ after).history
  · intro reader before input hbefore hlive
    rw [Runs.run_append] at hlive
    exact (Private.step_move options reader _ input).live hbefore hlive

def Public.firstData : List (Public.Input × Env) :=
  [(.start [Public.orderbook], {}), (.opened 1 none, {}), (.received 1 (.ok [0, 1]), {}),
    (.received 1 (.ok [1, 100]), {})]

def Private.firstData : List (Private.Input × Env) :=
  [(.start, {}), (.opened 1 none, {}), (.received 1 (.ok [0, 1]), {}), (.received 1 (.ok [1, 0]), {})]

/-- A topic joins such a client, and both the next data and the answer to the request clear the queue. -/
def Public.slowConsumer : List (Public.Input × Env) :=
  Public.firstData ++ [(.subscribe Public.marketChanged, ({} : Env)), (.received 1 (.ok [1, 101]), ({} : Env)),
    (.received 1 (.ok [0, 2]), ({} : Env))]

def Private.slowConsumer : List (Private.Input × Env) := Private.firstData ++ [(.markReconciled 1, ({} : Env))]

theorem live_after_lost_events :
    ((∃ payload, .data payload 1 ∈ (Public.shortRun 5 Public.slowConsumer).queue.lost) ∧
      (Public.shortRun 5 Public.slowConsumer).generation = 1 ∧ (Public.shortRun 5 Public.slowConsumer).state = .live) ∧
    (∃ payload, .data payload 1 ∈ (Private.shortRun 4 Private.slowConsumer).queue.lost) ∧
      (Private.shortRun 4 Private.slowConsumer).generation = 1 ∧ (Private.shortRun 4 Private.slowConsumer).state = .live := by
  refine ⟨⟨exists_data_mem 1 (Public.shortRun 5 Public.slowConsumer).queue.lost ?_, ?_, ?_⟩,
    exists_data_mem 1 (Private.shortRun 4 Private.slowConsumer).queue.lost ?_, ?_, ?_⟩
  all_goals decide

def Public.heartbeatLost : List (Public.Input × Env) := Public.firstData ++ [(.heartbeatExpired 1, ({} : Env))]

def Private.heartbeatLost : List (Private.Input × Env) := Private.firstData ++ [(.heartbeatExpired 1, ({} : Env))]

theorem heartbeat_lost_resyncs :
    (∃ payload, .data payload 1 ∈ (Public.shortRun 5 Public.heartbeatLost).queue.lost ∧
      (Public.shortRun 5 Public.heartbeatLost).state ≠ .live) ∧
    ∃ payload, .data payload 1 ∈ (Private.shortRun 4 Private.heartbeatLost).queue.lost ∧
      (Private.shortRun 4 Private.heartbeatLost).state ≠ .live := by
  constructor
  · obtain ⟨payload, hm⟩ := exists_data_mem 1 (Public.shortRun 5 Public.heartbeatLost).queue.lost (by decide)
    have halong : Runs.Along (Public.step { maxPendingEvents := 5 } Public.shortDecoder)
        (fun s input => Public.Announces Public.shortDecoder s input.1 → ¬Client.Crowded s)
        (Public.initial { maxPendingEvents := 5 } (.ofPolicy {} 1)) Public.heartbeatLost :=
      (Runs.along_append _ _ _ Public.firstData _).mpr ⟨Client.along_of_room _ _ (by decide +kernel), fun h => h.elim, trivial⟩
    have hstate := (lost_events_resync _ _).1 _ _ halong Public.heartbeatLost [] payload 1 (by rw [List.append_nil]) hm
    rw [List.append_nil] at hstate
    exact ⟨payload, hm, hstate (by decide +kernel)⟩
  · obtain ⟨payload, hm⟩ := exists_data_mem 1 (Private.shortRun 4 Private.heartbeatLost).queue.lost (by decide +kernel)
    have halong : Runs.Along (Private.step { maxPendingEvents := 4 } Private.shortReader)
        (fun s input => Private.Announces { maxPendingEvents := 4 } Private.shortReader s input.1 → ¬Client.Crowded s)
        (Private.initial { maxPendingEvents := 4 } (.ofPolicy {} 1)) Private.heartbeatLost :=
      (Runs.along_append _ _ _ Private.firstData _).mpr ⟨Client.along_of_room _ _ (by decide +kernel), fun h => h.elim, trivial⟩
    have hstate := (lost_events_resync _ _).2.1 _ _ halong Private.heartbeatLost [] payload 1 (by rw [List.append_nil]) hm
    rw [List.append_nil] at hstate
    exact ⟨payload, hm, hstate (by decide +kernel)⟩

end PredictFun.Wss
