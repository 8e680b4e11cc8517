import PredictFun.Wss.PublicSteps

namespace PredictFun.Wss

open Base Codec

namespace Public

open Client

variable {name : Bytes} {topics : List TopicRuntime}

theorem contains_iff :
    contains name topics = true ↔ name ∈ topics.map TopicRuntime.name := by
  simp [contains, List.any_eq_true]

theorem mem_emplace {topic : PublicTopic} {runtime : TopicRuntime}
    (h : runtime ∈ emplace name topic topics) : runtime ∈ topics ∨ runtime = { name := name, topic := topic } := by
  unfold emplace at h
  split_ifs at h
  · exact .inl h
  · rcases (List.mem_orderedInsert _).mp h with h | h
    · exact .inr h
    · exact .inl h

theorem names_emplace_nodup {topic : PublicTopic}
    (h : (topics.map TopicRuntime.name).Nodup) : ((emplace name topic topics).map TopicRuntime.name).Nodup := by
  unfold emplace
  split_ifs with hc
  · exact h
  · rw [contains_iff] at hc
    have hperm := (List.perm_orderedInsert (fun a b : TopicRuntime => a.name ≤ b.name) { name := name, topic := topic } topics).map
      TopicRuntime.name
    rw [hperm.nodup_iff, List.map_cons, List.nodup_cons]
    exact ⟨hc, h⟩

theorem names_modify (name : Bytes) (update : TopicRuntime → TopicRuntime) (hu : ∀ runtime, (update runtime).name = runtime.name)
    (topics : List TopicRuntime) : (modify name update topics).map TopicRuntime.name = topics.map TopicRuntime.name := by
  rw [modify, List.map_map]
  refine List.map_congr_left (fun runtime _ => ?_)
  dsimp only [Function.comp]
  split_ifs
  · exact hu runtime
  · rfl

theorem names_erase (name : Bytes) (topics : List TopicRuntime) :
    (erase name topics).map TopicRuntime.name = (topics.map TopicRuntime.name).filter (fun other => other ≠ name) := by
  rw [erase, List.filter_map]
  rfl

theorem enrol_induction {I : List TopicRuntime → Prop} (topics : List PublicTopic)
    (he : ∀ topic ∈ topics, ∀ name, publicTopicName topic = .ok name → ∀ admitted, I admitted → I (emplace name topic admitted))
    (unique : List Bytes) {admitted : List TopicRuntime} (hi : I admitted) : I (enrol topics unique admitted).1 := by
  induction topics generalizing unique admitted with
  | nil => exact hi
  | cons topic topics ih =>
    unfold enrol
    split
    · exact hi
    · next name hn =>
      split_ifs
      · exact hi
      · exact ih (fun topic ht => he topic (List.mem_cons_of_mem _ ht)) _ (he topic List.mem_cons_self name hn admitted hi)

theorem freshness_live_iff (topics : List TopicRuntime) :
    (freshness topics).1 = .live ↔ ∀ runtime ∈ topics, runtime.acknowledged = true ∧ runtime.fresh = true := by
  unfold freshness
  split_ifs with ha hf
  · simp only [Bool.not_eq_true', List.all_eq_false] at ha
    obtain ⟨runtime, hm, hr⟩ := ha
    simp only [false_iff]
    exact fun h => hr (h runtime hm).1
  · simp only [Bool.not_eq_true', List.all_eq_false] at hf
    obtain ⟨runtime, hm, hr⟩ := hf
    simp only [false_iff]
    exact fun h => hr (h runtime hm).2
  · simp only [Bool.not_eq_true', Bool.not_eq_false, List.all_eq_true] at ha hf
    simp only [true_iff]
    exact fun runtime hm => ⟨ha runtime hm, hf runtime hm⟩

theorem mem_modify {update : TopicRuntime → TopicRuntime} {runtime : TopicRuntime}
    (h : runtime ∈ modify name update topics) : ∃ other ∈ topics, runtime = other ∨ runtime = update other := by
  obtain ⟨other, hm, he⟩ := List.mem_map.mp h
  refine ⟨other, hm, ?_⟩
  split_ifs at he
  · exact .inr he.symm
  · exact .inl he.symm

def maxRequestId : ℕ := 2 ^ 63 - 1

def requestOf (isSubscribe : Bool) : ℕ → Bytes → Outgoing := if isSubscribe then .subscribe else .unsubscribe

theorem sendSubscription_eq (env : Env) {s : PublicClient} (isSubscribe : Bool)
    (hn : ∀ runtime ∈ s.protocol.topics, publicTopicName runtime.topic = .ok runtime.name)
    (hm : contains name s.protocol.topics = true) :
    sendSubscription env name isSubscribe s =
      if maxRequestId < s.ledger.nextRequestId then
        scheduleReconnect protocol env (ascii "request id exceeds signed 64-bit range") s.takeRequestId
      else
        write protocol env (requestOf isSubscribe s.ledger.nextRequestId name)
          (withPending (· ++ [⟨s.ledger.nextRequestId, isSubscribe, name⟩]) s.takeRequestId) := by
  unfold sendSubscription
  cases hf : s.protocol.topics.find? (fun runtime => runtime.name = name) with
  | none =>
    obtain ⟨runtime, hr, he⟩ := List.mem_map.mp (contains_iff.mp hm)
    have := List.find?_eq_none.mp hf runtime hr
    simp [he] at this
  | some runtime =>
    have hname : runtime.name = name := by simpa using List.find?_some hf
    have henc := hn runtime (List.mem_of_find?_eq_some hf)
    rw [hname] at henc
    cases isSubscribe <;>
      simp only [encodeSubscribeRequest, encodeUnsubscribeRequest, encodeTopicRequest, henc, bind, Except.bind, maxRequestId,
        requestOf, if_true, Bool.false_eq_true, if_false] <;>
      split_ifs <;> rfl

structure Sound (s : PublicClient) : Prop where
  linked : Linked s
  owed : ∀ operation ∈ s.ledger.inFlight, operation.generation ≤ s.generation
  -- a read is owed for an open session only, or for one that was given up
  reading : .reading s.generation ∈ s.ledger.inFlight → s.started = true → s.sessionOpen = true ∨ s.reconnectPending = true
  waiting : s.started = true → s.reconnectPending = true →
    s.protocol.pending = [] ∧ ∀ runtime ∈ s.protocol.topics, runtime.acknowledged = false
  stopped : s.started = false → s.sessionOpen = false ∧ s.protocol.pending = []
  live : s.state = .live → s.started = true ∧ s.reconnectPending = false ∧ s.sessionOpen = true
  named : ∀ runtime ∈ s.protocol.topics, publicTopicName runtime.topic = .ok runtime.name
  unique : (s.protocol.topics.map TopicRuntime.name).Nodup

namespace Sound

variable {s t : PublicClient} {reads : Bool} {env : Env}

theorem initial (options : ClientOptions) (backoff : Net.ReconnectBackoff) : Sound (Public.initial options backoff) where
  linked := fun h => nomatch h
  owed := fun _ h => nomatch h
  reading := fun h => nomatch h
  waiting := fun h => nomatch h
  stopped := fun _ => ⟨rfl, rfl⟩
  live := fun h => nomatch h
  named := fun _ h => nomatch h
  unique := List.nodup_nil

theorem reset_topics {topics : List TopicRuntime} (hn : ∀ runtime ∈ topics, publicTopicName runtime.topic = .ok runtime.name)
    (hu : (topics.map TopicRuntime.name).Nodup) :
    (∀ runtime ∈ topics.map TopicRuntime.reset, publicTopicName runtime.topic = .ok runtime.name) ∧
      ((topics.map TopicRuntime.reset).map TopicRuntime.name).Nodup ∧
      ∀ runtime ∈ topics.map TopicRuntime.reset, runtime.acknowledged = false := by
  refine ⟨?_, ?_, ?_⟩
  · simpa [TopicRuntime.reset] using hn
  · rw [List.map_map]
    exact hu
  · simp [TopicRuntime.reset]

theorem with_protocol (h : Sound s) {p : PublicProtocol} (hn : ∀ runtime ∈ p.topics, publicTopicName runtime.topic = .ok runtime.name)
    (hu : (p.topics.map TopicRuntime.name).Nodup)
    (hw : s.started = true → s.reconnectPending = true → p.pending = [] ∧ ∀ runtime ∈ p.topics, runtime.acknowledged = false)
    (hs : s.started = false → p.pending = []) : Sound { s with protocol := p } :=
  ⟨h.linked, h.owed, h.reading, hw, fun hf => ⟨(h.stopped hf).1, hs hf⟩, h.live, hn, hu⟩

theorem with_queue (h : Sound s) (queue : EventQueue (StreamEvent PublicData)) : Sound { s with queue := queue } :=
  ⟨h.linked, h.owed, h.reading, h.waiting, h.stopped, h.live, h.named, h.unique⟩

theorem set_state (h : Sound s) (value : StreamState) (reason : Bytes) (force : Bool)
    (hl : value = .live → s.started = true ∧ s.reconnectPending = false ∧ s.sessionOpen = true) :
    Sound (setState value reason force s) where
  linked := setState_linked value reason force h.linked
  owed := by simpa using h.owed
  reading := by simpa using h.reading
  waiting := by simpa using h.waiting
  stopped := by simpa using h.stopped
  live := by simpa using hl
  named := by simpa using h.named
  unique := by simpa using h.unique

theorem passive (h : Sound s) (hp : Passive protocol reads s t)
    (hr : reads = true → s.started = true → s.sessionOpen = true ∨ s.reconnectPending = true) : Sound t := by
  have hlinked := hp.linked h.linked
  obtain ⟨ledger, ho, rfl | ⟨hs, -, reason, rfl⟩⟩ := hp
  · refine ⟨hlinked, ?_, ?_, h.waiting, h.stopped, h.live, h.named, h.unique⟩
    · intro operation hm
      rcases ho operation hm with hm | rfl | ⟨-, rfl⟩
      · exact h.owed operation hm
      · exact le_refl _
      · exact le_refl _
    · intro hm hs
      rcases ho _ hm with hm | hm | ⟨hreads, -⟩
      · exact h.reading hm hs
      · cases hm
      · exact hr hreads hs
  · obtain ⟨hnamed, hunique, hacked⟩ := reset_topics h.named h.unique
    refine ⟨hlinked, ?_, fun _ _ => .inr (by simp), fun _ _ => ?_, fun hf => ?_, fun hl => ?_, ?_, ?_⟩
    · intro operation hm
      simp only [drop_generation]
      rcases ho operation hm with hm | rfl | ⟨-, rfl⟩
      · exact h.owed operation hm
      · exact le_refl _
      · exact le_refl _
    · simpa [protocol] using hacked
    · simp [hs] at hf
    · simp at hl
    · simpa [protocol] using hnamed
    · simpa [protocol] using hunique

theorem renewed (hs : s.started = true) (ho : ∀ operation ∈ s.ledger.inFlight, operation.generation ≤ s.generation)
    (hn : ∀ runtime ∈ s.protocol.topics, publicTopicName runtime.topic = .ok runtime.name)
    (hu : (s.protocol.topics.map TopicRuntime.name).Nodup) (h : Renewed protocol s t) : Sound t := by
  have hlinked := h.linked
  obtain ⟨hnamed, hunique, -⟩ := reset_topics hn hu
  obtain ⟨hnamed', hunique', hacked'⟩ := reset_topics hnamed hunique
  obtain ⟨ledger, ⟨rfl, howed⟩ | ⟨reason, rfl, howed⟩⟩ := h
  · refine ⟨hlinked, ?_, ?_, fun _ hp => ?_, fun hf => ?_, fun hl => ?_, ?_, ?_⟩
    · intro operation hm
      simp only [renew_generation]
      rcases howed operation hm with hm | rfl
      · exact (ho operation hm).trans (Nat.le_succ _)
      · exact le_refl _
    · intro hm
      -- no read of the new generation is owed yet
      simp only [renew_generation] at hm
      rcases howed _ hm with hm | hm
      · have := ho _ hm
        simp [Operation.generation] at this
      · cases hm
    · simp at hp
    · simp [hs] at hf
    · simp at hl
    · simpa [protocol] using hnamed
    · simpa [protocol] using hunique
  · refine ⟨hlinked, ?_, fun _ _ => .inr (by simp), fun _ _ => ?_, fun hf => ?_, fun hl => ?_, ?_, ?_⟩
    · intro operation hm
      simp only [drop_generation, renew_generation]
      exact (ho operation (howed ▸ hm)).trans (Nat.le_succ _)
    · simpa [protocol] using hacked'
    · simp [hs] at hf
    · simp at hl
    · simpa [protocol] using hnamed'
    · simpa [protocol] using hunique'

theorem connected (h : Sound s) (hs : s.started = true) {request : PendingRequest} (hm : request ∈ s.protocol.pending) :
    s.reconnectPending = false := by
  by_contra hp
  rw [Bool.not_eq_false] at hp
  rw [(h.waiting hs hp).1] at hm
  cases hm

theorem hard_stop (h : Sound s) (reason : Bytes) : Sound (hardStop protocol reason s) where
  linked := hardStop_linked reason s
  owed := by simpa using h.owed
  reading := fun _ hs => by simp at hs
  waiting := fun hs => by simp at hs
  stopped := fun _ => by simp [protocol]
  live := fun hl => by simp at hl
  named := by simpa [protocol] using h.named
  unique := by simpa [protocol] using h.unique

theorem modify (h : Sound s) (name : Bytes) (update : TopicRuntime → TopicRuntime)
    (hu : ∀ runtime, (update runtime).name = runtime.name ∧ (update runtime).topic = runtime.topic)
    (ha : s.reconnectPending = false ∨ ∀ runtime, (update runtime).acknowledged = runtime.acknowledged) :
    Sound (withTopics (Public.modify name update) s) := by
  refine h.with_protocol ?_ ?_ (fun hs hp => ⟨(h.waiting hs hp).1, ?_⟩) (fun hs => (h.stopped hs).2)
  · intro runtime hm
    obtain ⟨other, ho, rfl | rfl⟩ := mem_modify hm
    · exact h.named _ ho
    · rw [(hu other).1, (hu other).2]
      exact h.named _ ho
  · rw [names_modify name update (fun runtime => (hu runtime).1)]
    exact h.unique
  · intro runtime hm
    rcases ha with ha | ha
    · rw [hp] at ha
      cases ha
    · obtain ⟨other, ho, rfl | rfl⟩ := mem_modify hm
      · exact (h.waiting hs hp).2 _ ho
      · rw [ha]
        exact (h.waiting hs hp).2 _ ho

theorem erase (h : Sound s) (name : Bytes) : Sound (withTopics (Public.erase name) s) := by
  refine h.with_protocol ?_ ?_ (fun hs hp => ⟨(h.waiting hs hp).1, ?_⟩) (fun hs => (h.stopped hs).2)
  · exact fun runtime hm => h.named runtime (List.mem_of_mem_filter hm)
  · rw [names_erase]
    exact h.unique.filter _
  · exact fun runtime hm => (h.waiting hs hp).2 runtime (List.mem_of_mem_filter hm)

theorem forget (h : Sound s) (request : PendingRequest) : Sound (Public.forget request s) := by
  refine h.with_protocol h.named h.unique (fun hs hp => ⟨?_, (h.waiting hs hp).2⟩) (fun hs => ?_)
  · rw [(h.waiting hs hp).1]
    rfl
  · rw [(h.stopped hs).2]
    rfl

theorem pending (h : Sound s) {requests : List PendingRequest}
    (hr : s.started = true ∧ s.channel = true ∨ requests = []) : Sound (withPending (· ++ requests) s) := by
  rcases hr with ⟨hs, hc⟩ | rfl
  · refine h.with_protocol h.named h.unique (fun _ hp => ?_) (fun hf => ?_)
    · have := h.linked hs
      rw [hc, hp] at this
      cases this
    · rw [hs] at hf
      cases hf
  · unfold withPending
    simp only [List.append_nil]
    exact h

theorem announce (h : Sound s) (hs : s.started = true) (hopen : s.sessionOpen = true ∨ s.reconnectPending = true)
    (hl : (∀ runtime ∈ s.protocol.topics, runtime.acknowledged = true) → s.reconnectPending = false) :
    Sound (Public.announce s) := by
  refine h.set_state _ _ _ (fun hlive => ?_)
  have hp := hl (fun runtime hm => ((freshness_live_iff _).mp hlive runtime hm).1)
  rw [hp] at hopen
  exact ⟨hs, hp, hopen.resolve_right (by simp)⟩

theorem ledger (h : Sound s) (ledger : Ledger) (hl : Owed false s ledger) : Sound { s with ledger := ledger } :=
  h.passive (Passive.of_ledger hl) Bool.noConfusion

theorem refreshed (h : Sound s) (hs : s.started = true) (hopen : s.sessionOpen = true ∨ s.reconnectPending = true)
    {message : PublicWsMessage} {runtime : TopicRuntime} (hr : route message s.protocol.topics = some runtime) :
    Sound (Public.announce (withTopics (Public.modify runtime.name (refresh message)) s)) := by
  have hm : runtime ∈ s.protocol.topics := by
    unfold route at hr
    split at hr
    · exact List.mem_of_find?_eq_some hr
    · cases hr
  refine (h.modify runtime.name (refresh message) (fun _ => ⟨rfl, rfl⟩) (.inr fun _ => rfl)).announce hs hopen (fun hall => ?_)
  by_contra hp
  rw [Bool.not_eq_false] at hp
  have hacked := hall (refresh message runtime) (List.mem_map.mpr ⟨runtime, hm, if_pos rfl⟩)
  have := (h.waiting hs hp).2 runtime hm
  rw [show runtime.acknowledged = true from hacked] at this
  cases this

theorem digest (h : Sound s) (hs : s.started = true) (hopen : s.sessionOpen = true ∨ s.reconnectPending = true)
    {message : PublicWsMessage} (hd : Digest s message t) :
    Sound t ∧ t.started = true ∧ (t.sessionOpen = true ∨ t.reconnectPending = true) := by
  cases hd with
  | passive hp => exact ⟨h.passive hp Bool.noConfusion, hp.open_or_pending hs hopen⟩
  | rejected hm hp => exact ⟨(h.forget _).passive hp Bool.noConfusion, hp.open_or_pending hs hopen⟩
  | @acknowledged _ request hm hid hok hsub ledger hl =>
    have hp := h.connected hs hm
    refine ⟨?_, by simpa [withTopics, Public.forget, withPending] using ⟨hs, hopen⟩⟩
    have ha := ((h.forget request).modify request.topicName acknowledge (fun _ => ⟨rfl, rfl⟩) (.inl hp)).announce
      hs hopen (fun _ => hp)
    exact ha.ledger ledger (by simpa [Owed, withTopics, Public.forget, withPending] using hl)
  | @erased _ request hm hid hok hsub ledger hl =>
    have hp := h.connected hs hm
    refine ⟨?_, by simpa [withTopics, Public.forget, withPending] using ⟨hs, hopen⟩⟩
    have ha := ((h.forget request).erase request.topicName).announce hs hopen (fun _ => hp)
    exact ha.ledger ledger (by simpa [Owed, withTopics, Public.forget, withPending] using hl)
  | unknown ledger hl =>
    refine ⟨?_, by simpa using ⟨hs, hopen⟩⟩
    exact (h.set_state .degraded _ true StreamState.noConfusion).ledger ledger (by simpa [Owed] using hl)
  | @accepted _ runtime hr hreg ledger hl u hu hf =>
    subst hu
    refine ⟨?_, by simpa [withTopics] using ⟨hs, hopen⟩⟩
    have hq := (h.refreshed hs hopen hr).ledger ledger (by simpa [Owed, withTopics] using hl)
    exact hq.with_queue _
  | @refused _ runtime hr hreg u _ hu hf ledger hl ht hp =>
    subst hu
    have hq := (h.refreshed hs hopen hr).ledger ledger (by simpa [Owed, withTopics] using hl)
    exact ⟨(hq.with_queue _).passive ht Bool.noConfusion,
      ht.open_or_pending (by simpa [withTopics] using hs) (by simpa [withTopics] using hopen)⟩

theorem emplace (h : Sound s) {topic : PublicTopic} {name : Bytes} (hn : publicTopicName topic = .ok name) :
    Sound (withTopics (Public.emplace name topic) s) := by
  refine h.with_protocol ?_ (names_emplace_nodup h.unique) (fun hs hp => ⟨(h.waiting hs hp).1, ?_⟩) (fun hs => (h.stopped hs).2)
  · intro runtime hm
    rcases mem_emplace hm with hm | rfl
    · exact h.named runtime hm
    · exact hn
  · intro runtime hm
    rcases mem_emplace hm with hm | rfl
    · exact (h.waiting hs hp).2 runtime hm
    · rfl

theorem enrol (h : Sound s) (hs : s.started = false) (topics : List PublicTopic) :
    Sound (withTopics (fun _ => (Public.enrol topics [] s.protocol.topics).1) s) := by
  have hi := enrol_induction topics
    (I := fun enrolled => (∀ runtime ∈ enrolled, publicTopicName runtime.topic = .ok runtime.name) ∧
      (enrolled.map TopicRuntime.name).Nodup)
    (fun topic _ name hn enrolled hi => ⟨fun runtime hm => (mem_emplace hm).elim (hi.1 runtime) (fun he => he ▸ hn),
      names_emplace_nodup hi.2⟩) [] ⟨h.named, h.unique⟩
  refine h.with_protocol hi.1 hi.2 (fun hs' => ?_) (fun hs => (h.stopped hs).2)
  rw [hs] at hs'
  cases hs'

theorem move (h : Sound s) {decode : FrameDecoder} {input : Input} (hm : Move decode s input t) : Sound t := by
  cases hm with
  | passive hp => exact h.passive hp Bool.noConfusion
  | pop => exact h.with_queue _
  | stop => exact h.hard_stop _
  | refused hs he =>
    rcases he with rfl | rfl
    · exact h.hard_stop _
    · exact (h.enrol hs _).hard_stop _
  | @start topics _ hs he hr =>
    have hk := h.enrol hs topics
    exact renewed (s := { withTopics _ s with started := true }) rfl hk.owed hk.named hk.unique hr
  | reconnect hs hr => exact renewed hs h.owed h.named h.unique hr
  | idle ledger hs hl =>
    have hl := h.ledger ledger hl
    refine ⟨fun hs' => ?_, hl.owed, fun _ hs' => ?_, fun hs' => ?_, hl.stopped, fun hlive => ?_, hl.named, hl.unique⟩
    · simp [hs] at hs'
    · simp [hs] at hs'
    · simp [hs] at hs'
    · have := (h.live hlive).1
      simp [hs] at this
  | opened hs hg hf hr hd hp =>
    have hopened : Sound (openSession s) := by
      refine ⟨?_, ?_, fun _ _ => .inl (by simp), ?_, fun hf => ?_, fun hl => ?_, ?_, ?_⟩
      · exact setState_linked _ _ _ h.linked
      · simpa using h.owed
      · simpa using h.waiting
      · simp [hs] at hf
      · simp at hl
      · simpa using h.named
      · simpa using h.unique
    refine (hopened.pending ?_).passive hp (fun _ _ => .inl (by simp [withPending]))
    cases hrp : s.reconnectPending with
    | false => exact .inl ⟨by simpa using hs, by simpa [hrp] using h.linked hs⟩
    | true => exact .inr (hd hrp (by simpa [hrp] using h.linked hs))
  | frame hs hg hf hm hd hp =>
    have hu := h.digest hs (h.reading (hg ▸ hf) hs) hd
    exact hu.1.passive hp (fun _ _ => hu.2.2)
  | degraded hn => exact h.set_state _ _ _ StreamState.noConfusion
  | added hn hc hr ho hp =>
    refine ((h.emplace hn).pending ?_).passive hp Bool.noConfusion
    exact ho.imp_left (fun ho => ⟨ho.1, ho.2.2⟩)
  | removed hn hc ho => exact h.erase _
  | withdrawn hn hc ho hr hp => exact (h.pending (.inl ⟨ho.1, ho.2.2⟩)).passive hp Bool.noConfusion

end Sound

theorem step_sound (options : ClientOptions) (decode : FrameDecoder) {s : PublicClient} (h : Sound s) (input : Input × Env) :
    Sound (step options decode s input) := h.move (step_move options decode s input)

theorem run_sound (options : ClientOptions) (decode : FrameDecoder) (backoff : Net.ReconnectBackoff) (inputs : List (Input × Env)) :
    Sound (Runs.run (step options decode) (initial options backoff) inputs) :=
  Runs.run_invariant (step options decode) (Q := fun _ _ => True) (I := Sound)
    (fun _ input hi _ => step_sound options decode hi input) (Sound.initial options backoff)
    (Runs.along_true _ _ _)

end Public

end PredictFun.Wss
