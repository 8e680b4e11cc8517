import PredictFun.Wss.PublicSound

namespace PredictFun.Wss

open Base Codec

namespace Public

open Client

variable {s t : PublicClient} {reads : Bool}

def Heard (s : PublicClient) : Prop :=
  s.state = .live → ∀ runtime ∈ s.protocol.topics, runtime.acknowledged = true ∧ runtime.fresh = true

namespace Heard

theorem of_state (h : s.state ≠ .live) : Heard s := fun hl => absurd hl h

theorem passive (h : Heard s) (hp : Passive protocol reads s t) : Heard t := by
  obtain ⟨ledger, -, rfl | ⟨-, -, reason, rfl⟩⟩ := hp
  · exact h
  · exact of_state (by simp)

theorem announced (s : PublicClient) : Heard (announce s) := by
  intro hl
  simpa using (freshness_live_iff s.protocol.topics).mp (by simpa using hl)

theorem digest (h : Heard s) {message : PublicWsMessage} (hd : Digest s message t) : Heard t := by
  cases hd with
  | passive hp => exact h.passive hp
  | rejected hm hp => exact passive (s := forget _ s) h hp
  | acknowledged hm hid hok hs ledger hl => exact announced _
  | erased hm hid hok hs ledger hl => exact announced _
  | unknown ledger hl => exact of_state (by simp)
  | accepted hr ho ledger hl hu hf =>
    subst hu
    exact announced _
  | refused hr ho hu hf ledger hl ht hp =>
    subst hu
    refine passive ?_ ht
    exact announced (withTopics _ s)

theorem renewed (h : Renewed protocol s t) : Heard t := by
  obtain ⟨ledger, ⟨rfl, -⟩ | ⟨reason, rfl, -⟩⟩ := h
  · exact of_state (by simp)
  · exact of_state (by simp)

end Heard

def JoinsLive (s : PublicClient) (input : Input × Env) : Prop :=
  s.ledger.faulted = false ∧ s.state = .live ∧ ∃ topic name, input.1 = .subscribe topic ∧ publicTopicName topic = .ok name ∧
    contains name s.protocol.topics = false ∧ s.ledger.nextRequestId ≤ maxRequestId ∧
    input.2.writeRefusal (.subscribe s.ledger.nextRequestId name) = none

theorem contains_emplace (name : Bytes) (topic : PublicTopic) (topics : List TopicRuntime) :
    contains name (emplace name topic topics) = true := by
  unfold emplace
  split_ifs with h
  · exact h
  · rw [contains_iff, List.mem_map]
    exact ⟨_, (List.mem_orderedInsert _).mpr (.inl rfl), rfl⟩

theorem scheduleReconnect_dropped (env : Env) (reason : Bytes) (hs : s.started = true) (hp : s.reconnectPending = false) :
    (scheduleReconnect protocol env reason s).state = .reconnectWait := by
  obtain ⟨reason', ledger, -, he⟩ := scheduleReconnect_eq env (P := protocol) reason hs hp
  simp [he]

theorem addTopic_live (env : Env) {topic : PublicTopic} {name : Bytes} (h : Sound s) (hl : s.state = .live)
    (hn : publicTopicName topic = .ok name) (hc : contains name s.protocol.topics = false) :
    (addTopic env topic s).ledger.faulted = s.ledger.faulted ∧
      if s.ledger.nextRequestId ≤ maxRequestId ∧ env.writeRefusal (.subscribe s.ledger.nextRequestId name) = none then
        (addTopic env topic s).state = .live ∧ (addTopic env topic s).protocol.topics = emplace name topic s.protocol.topics
      else (addTopic env topic s).state = .reconnectWait := by
  obtain ⟨hs, hp, ho⟩ := h.live hl
  have hchannel : s.channel = true := by simpa [hp] using h.linked hs
  have hsend := sendSubscription_eq env true (h.emplace hn).named (contains_emplace name topic s.protocol.topics)
  have hadd : addTopic env topic s =
      armAckTimeout s.generation (sendSubscription env name true (withTopics (emplace name topic) s)) := by
    unfold addTopic
    rw [hn]
    dsimp only
    rw [hc, if_neg (by simp)]
    exact if_pos ⟨hs, ho, hchannel⟩
  by_cases hid : maxRequestId < (withTopics (emplace name topic) s).ledger.nextRequestId
  · rw [if_pos hid] at hsend
    rw [hadd, hsend, if_neg (fun h => absurd h.1 (not_le.mpr hid))]
    exact ⟨scheduleReconnect_faulted .., scheduleReconnect_dropped env _ hs hp⟩
  · rw [if_neg hid] at hsend
    rw [hadd, hsend]
    refine ⟨(write_faulted ..).trans (by simp [withPending, takeRequestId, withTopics, hchannel]), ?_⟩
    cases hr : env.writeRefusal (.subscribe s.ledger.nextRequestId name) with
    | none =>
      obtain ⟨ledger, he, -⟩ := write_kept env (P := protocol)
        (s := withPending (· ++ [⟨s.ledger.nextRequestId, true, name⟩]) (withTopics (emplace name topic) s).takeRequestId) hchannel hr
      rw [if_pos ⟨not_lt.mp hid, rfl⟩]
      exact ⟨(congrArg Client.state he).trans hl, congrArg (fun t : PublicClient => t.protocol.topics) he⟩
    | some reason =>
      obtain ⟨reason', ledger, he⟩ := write_dropped env (P := protocol)
        (s := withPending (· ++ [⟨s.ledger.nextRequestId, true, name⟩]) (withTopics (emplace name topic) s).takeRequestId)
        hchannel hs hp hr
      rw [if_neg (by simp)]
      have hstate := congrArg Client.state he
      simp only [drop_state] at hstate
      exact hstate

theorem Heard.move (h : Heard s) {decode : FrameDecoder} {input : Input} (hm : Move decode s input t)
    (hi : ∀ topic name, input = .subscribe topic → publicTopicName topic = .ok name → contains name s.protocol.topics = false →
      s.state ≠ .live) : Heard t := by
  cases hm with
  | passive hp => exact h.passive hp
  | pop => exact h
  | stop => exact of_state (by simp)
  | refused hs he => exact of_state (by simp)
  | start hs he hr => exact renewed hr
  | reconnect hs hr => exact renewed hr
  | idle ledger hs hl => exact h
  | opened hs hg hf hr hd hp => exact passive (s := withPending _ (openSession s)) (of_state (by simp [withPending])) hp
  | frame hs hg hf hm hd hp => exact (h.digest hd).passive hp
  | degraded hn => exact of_state (by simp)
  | @added topic name requests _ hn hc hr ho hp =>
    exact passive (s := withPending _ (withTopics (emplace name topic) s)) (of_state (hi topic name rfl hn hc)) hp
  | removed hn hc ho => exact fun hl runtime hm => h hl runtime (List.mem_of_mem_filter hm)
  | withdrawn hn hc ho hr hp => exact passive (s := withPending _ s) h hp

theorem mem_emplace_new {name : Bytes} {topic : PublicTopic} {topics : List TopicRuntime} (h : contains name topics = false) :
    { name := name, topic := topic } ∈ emplace name topic topics := by
  unfold emplace
  rw [if_neg (by simp [h])]
  exact (List.mem_orderedInsert _).mpr (.inl rfl)

theorem heard_step_iff (options : ClientOptions) (decode : FrameDecoder) (hs : Sound s) (h : Heard s) (input : Input × Env) :
    Heard (step options decode s input) ↔ ¬JoinsLive s input := by
  obtain ⟨input, env⟩ := input
  by_cases hj : s.ledger.faulted = false ∧ s.state = .live ∧ ∃ topic name, input = .subscribe topic ∧
      publicTopicName topic = .ok name ∧ contains name s.protocol.topics = false
  · obtain ⟨hf, hl, topic, name, rfl, hn, hc⟩ := hj
    obtain ⟨hfaulted, hadd⟩ := addTopic_live env hs hl hn hc
    rw [step_eq options decode (.subscribe topic) env hf (hfaulted.trans hf)]
    change Heard (addTopic env topic s) ↔ _
    split_ifs at hadd with hsent
    · refine iff_of_false (fun hh => ?_) (not_not.mpr ⟨hf, hl, topic, name, rfl, hn, hc, hsent⟩)
      have hnew := hh hadd.1 { name := name, topic := topic } (hadd.2 ▸ mem_emplace_new hc)
      cases hnew.1
    · refine iff_of_true (Heard.of_state (by simp [hadd])) ?_
      rintro ⟨-, -, topic', name', he, hn', -, hid, hw⟩
      cases he
      rw [hn] at hn'
      cases hn'
      exact hsent ⟨hid, hw⟩
  · refine iff_of_true ?_ (fun ⟨hf, hl, topic, name, hi, hn, hc, _⟩ => hj ⟨hf, hl, topic, name, hi, hn, hc⟩)
    by_cases hf : s.ledger.faulted = true
    · rwa [step_faulted options decode _ hf]
    · refine h.move (step_move options decode s (input, env)) (fun topic name hi hn hc hl => ?_)
      exact hj ⟨by simpa using hf, hl, topic, name, hi, hn, hc⟩

theorem renewed_unheard (h : Renewed protocol s t) :
    ∀ runtime ∈ t.protocol.topics, runtime.acknowledged = false ∧ runtime.fresh = false := by
  obtain ⟨ledger, ⟨rfl, -⟩ | ⟨reason, rfl, -⟩⟩ := h
  · simp [protocol, TopicRuntime.reset]
  · simp [protocol, TopicRuntime.reset]

theorem new_generation_unheard {decode : FrameDecoder} {input : Input} (hm : Move decode s input t)
    (hg : t.generation ≠ s.generation) : ∀ runtime ∈ t.protocol.topics, runtime.acknowledged = false ∧ runtime.fresh = false := by
  cases hm with
  | passive hp => exact absurd hp.generation hg
  | start hs he hr => exact renewed_unheard hr
  | reconnect hs hr => exact renewed_unheard hr
  | opened hs _ hf hr hd hp => exact absurd (hp.generation.trans (openSession_generation s)) hg
  | frame hs _ hf hm hd hp => exact absurd (hp.generation.trans hd.generation) hg
  | added hn hc hr ho hp => exact absurd hp.generation hg
  | withdrawn hn hc ho hr hp => exact absurd hp.generation hg
  | stop => exact absurd (hardStop_generation ..) hg
  | refused hs he => exact absurd (hardStop_generation ..) hg
  | degraded hn => exact absurd (setState_generation ..) hg
  | pop => exact absurd rfl hg
  | idle ledger hs hl => exact absurd rfl hg
  | removed hn hc ho => exact absurd rfl hg

theorem live_topics_heard_iff (options : ClientOptions) (decode : FrameDecoder) (backoff : Net.ReconnectBackoff)
    (inputs : List (Input × Env)) :
    ((∀ before, before <+: inputs →
        (Runs.run (step options decode) (initial options backoff) before).state = .live →
          (Runs.run (step options decode) (initial options backoff) before).sessionOpen = true ∧
            ∀ runtime ∈ (Runs.run (step options decode) (initial options backoff) before).protocol.topics,
              runtime.acknowledged = true ∧ runtime.fresh = true) ↔
      Runs.Along (step options decode) (fun s input => ¬JoinsLive s input) (initial options backoff) inputs) ∧
    ∀ before input, before ++ [input] <+: inputs →
      (Runs.run (step options decode) (initial options backoff) (before ++ [input])).generation ≠
          (Runs.run (step options decode) (initial options backoff) before).generation →
        ∀ runtime ∈ (Runs.run (step options decode) (initial options backoff) (before ++ [input])).protocol.topics,
          runtime.acknowledged = false ∧ runtime.fresh = false := by
  constructor
  · have hgood := Runs.good_iff (step options decode) (Q := fun s input => ¬JoinsLive s input) (D := fun _ _ => True)
      (I := fun s => Sound s ∧ Heard s) (C := Heard) (fun s hi => hi.2)
      (fun s input hi _ hq => ⟨step_sound options decode hi.1 input, (heard_step_iff options decode hi.1 hi.2 input).mpr hq⟩)
      (fun s input hi _ hc => (heard_step_iff options decode hi.1 hi.2 input).mp hc)
      ⟨Sound.initial options backoff, Heard.of_state (by simp [initial])⟩
      (Runs.along_true (step options decode) _ inputs)
    rw [← hgood]
    refine forall_congr' (fun before => forall_congr' (fun _ => ⟨fun h hl => (h hl).2, fun h hl => ⟨?_, h hl⟩⟩))
    exact ((run_sound options decode backoff before).live hl).2.2
  · intro before input _ hg
    rw [Runs.run_append] at hg ⊢
    exact new_generation_unheard (step_move options decode _ input) hg

/-- A topic that joins a live client leaves it live before the topic is acknowledged. -/
theorem live_with_unheard_topic :
    (Runs.run (step {} testDecoder) (initial {} (.ofPolicy {} 1))
      [(.start [orderbook], {}), (.opened 1 none, {}), (.received 1 (.ok (ackFrame 1)), {}),
        (.received 1 (.ok (bookFrame 1000)), {}), (.subscribe marketChanged, {})]).state = .live ∧
    ∃ runtime ∈ (Runs.run (step {} testDecoder) (initial {} (.ofPolicy {} 1))
      [(.start [orderbook], {}), (.opened 1 none, {}), (.received 1 (.ok (ackFrame 1)), {}),
        (.received 1 (.ok (bookFrame 1000)), {}), (.subscribe marketChanged, {})]).protocol.topics,
      runtime.topic = marketChanged ∧ runtime.acknowledged = false ∧ runtime.fresh = false := by
  decide +kernel

end Public

end PredictFun.Wss
