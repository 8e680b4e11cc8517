import PredictFun.Wss.PrivateSteps

namespace PredictFun.Wss

open Base Codec

namespace Private

open Client

structure Sound (s : PrivateClient) : Prop where
  linked : Linked s
  awaiting : s.protocol.awaitingAck = true → s.started = true ∧ s.reconnectPending = false
  active : s.state = .reconciliationRequired ∨ s.state = .live → s.started = true ∧ s.reconnectPending = false

namespace Sound

variable {s t : PrivateClient} {reads : Bool}

theorem initial (options : ClientOptions) (backoff : Net.ReconnectBackoff) : Sound (Private.initial options backoff) where
  linked := fun h => nomatch h
  awaiting := fun h => nomatch h
  active := fun h => h.elim (fun h => nomatch h) (fun h => nomatch h)

theorem passive (h : Sound s) (hp : Passive protocol reads s t) : Sound t := by
  have hlinked := hp.linked h.linked
  obtain ⟨ledger, -, rfl | ⟨-, -, reason, rfl⟩⟩ := hp
  · exact ⟨hlinked, h.awaiting, h.active⟩
  · exact ⟨hlinked, fun ha => by simp [protocol] at ha, fun ha => by simp at ha⟩

theorem renewed (h : Renewed protocol s t) : Sound t := by
  have hlinked := h.linked
  obtain ⟨ledger, ⟨rfl, -⟩ | ⟨reason, rfl, -⟩⟩ := h
  · exact ⟨hlinked, fun ha => by simp [protocol] at ha, fun ha => by simp at ha⟩
  · exact ⟨hlinked, fun ha => by simp [protocol] at ha, fun ha => by simp at ha⟩

theorem hard_stop (reason : Bytes) (s : PrivateClient) : Sound (hardStop protocol reason s) :=
  ⟨hardStop_linked reason s, fun ha => by simp [protocol] at ha, fun ha => by simp at ha⟩

theorem open_session (h : Sound s) : Sound (openSession s) where
  linked := setState_linked _ _ _ h.linked
  awaiting := by simpa using h.awaiting
  active := fun ha => by simp at ha

theorem with_queue (h : Sound s) (queue : EventQueue (StreamEvent PrivateData)) : Sound { s with queue := queue } :=
  ⟨h.linked, h.awaiting, h.active⟩

theorem with_protocol (h : Sound s) {update : PrivateProtocol → PrivateProtocol}
    (ha : (update s.protocol).awaitingAck = true → s.started = true ∧ s.reconnectPending = false) :
    Sound (withProtocol update s) := ⟨h.linked, ha, h.active⟩

theorem set_state (h : Sound s) {value : StreamState} (reason : Bytes) (force : Bool)
    (ha : s.started = true ∧ s.reconnectPending = false) : Sound (setState value reason force s) where
  linked := setState_linked _ _ _ h.linked
  awaiting := by simpa using h.awaiting
  active := fun _ => by simpa using ha

theorem digest (h : Sound s) {message : PrivateWsMessage} (hd : Digest s message t) : Sound t := by
  cases hd with
  | passive hp => exact h.passive hp
  | rejected hp => exact (h.with_protocol (fun ha => by cases ha)).passive hp
  | acknowledged ha hid hok hp =>
    have hactive := h.awaiting ha
    exact ((h.with_protocol (fun ha => by cases ha)).set_state _ true hactive).passive hp
  | accepted hf hp => exact (h.with_queue _).passive hp
  | refused hf hp _ => exact (h.with_queue _).passive hp

theorem move (h : Sound s) {options : ClientOptions} {reader : WebsocketReader} {input : Input}
    (hm : Move options reader s input t) : Sound t := by
  cases hm with
  | passive hp => exact h.passive hp
  | pop => exact h.with_queue _
  | stop => exact hard_stop _ s
  | refused hs => exact hard_stop _ s
  | start hs hr => exact renewed hr
  | reconnect hs hr => exact renewed hr
  | idle ledger hs hl =>
    refine ⟨fun hs' => ?_, fun ha => ⟨(h.awaiting ha).1, rfl⟩, fun ha => ⟨(h.active ha).1, rfl⟩⟩
    simp [hs] at hs'
  | opened hs hg hf hp => exact h.open_session.passive hp
  | subscribed hs hg hf hc hp =>
    refine (h.open_session.with_protocol (fun _ => ?_)).passive hp
    have hlinked := h.linked hs
    rw [hc] at hlinked
    exact ⟨by simpa using hs, by simpa using hlinked⟩
  | frame hs hg hf hm hd => exact h.digest hd
  | reconciled ledger hs hg hopen hstate hl =>
    have hlive : Sound (goLive s) := (h.with_protocol h.awaiting).set_state _ true (h.active (.inl hstate))
    have howed : Owed false (goLive s) ledger := by simpa [Owed, goLive, withProtocol] using hl
    exact hlive.passive (Passive.of_ledger howed)

end Sound

def Acknowledges (options : ClientOptions) (reader : WebsocketReader) (s : PrivateClient) (input : Input) : Prop :=
  Due (.reading s.generation) s ∧ ∃ text response, input = .received s.generation (.ok text) ∧
    reader.decodePrivateWsFrame text options.decodeLimits = .ok (.subscription response) ∧ response.success = true ∧
    s.protocol.awaitingAck = true ∧ response.requestId.toNat = s.protocol.pendingRequestId

theorem Move.rises {s t : PrivateClient} {options : ClientOptions} {reader : WebsocketReader} {input : Input}
    (hm : Move options reader s input t) (hs : ¬(s.state = t.state ∧ s.generation = t.generation))
    (ht : t.state = .reconciliationRequired ∨ t.state = .live) :
    t.generation = s.generation ∧ (t.state = .reconciliationRequired ∧ Acknowledges options reader s input ∨
      t.state = .live ∧ s.state = .reconciliationRequired ∧ input = .markReconciled s.generation) := by
  -- the other steps keep the state and the generation, or announce a state of another kind
  have hpassive : ∀ {u : PrivateClient} {reads : Bool}, Passive protocol reads u t → u.generation = s.generation →
      u.state = s.state ∨ u.state = .subscribing → False := by
    intro u reads hp hg hu
    rcases hp.state_cases with he | he
    · rcases hu with hu | hu
      · exact hs ⟨(he.trans hu).symm, (hp.generation.trans hg).symm⟩
      · simp [he, hu] at ht
    · simp [he] at ht
  have hrenewed : ∀ {u : PrivateClient}, Renewed protocol u t → False := by
    rintro u ⟨ledger, ⟨rfl, -⟩ | ⟨reason, rfl, -⟩⟩
    · simp at ht
    · simp at ht
  cases hm with
  | passive hp => exact (hpassive hp rfl (.inl rfl)).elim
  | pop => exact absurd ⟨rfl, rfl⟩ hs
  | stop => simp at ht
  | refused _ => simp at ht
  | start _ hr => exact (hrenewed hr).elim
  | reconnect _ hr => exact (hrenewed hr).elim
  | idle ledger _ hl => exact absurd ⟨rfl, rfl⟩ hs
  | opened _ _ hf hp => exact (hpassive hp (by simp) (.inr (by simp))).elim
  | subscribed _ _ hf hc hp => exact (hpassive hp (by simp [withProtocol]) (.inr (by simp [withProtocol]))).elim
  | frame hstarted hg hf hm hd =>
    subst hg
    cases hd with
    | passive hp => exact (hpassive hp rfl (.inl rfl)).elim
    | rejected hp => exact (hpassive hp rfl (.inl rfl)).elim
    | acknowledged ha hid hok hp =>
      have hd : (demandReconciliation s).state = .reconciliationRequired := by simp [demandReconciliation]
      rcases hp.state_cases with he | he
      · exact ⟨hp.generation.trans (by simp [demandReconciliation, withProtocol]),
          .inl ⟨he.trans hd, ⟨hf, hstarted, rfl⟩, _, _, rfl, hm, hok, ha, hid⟩⟩
      · simp [he] at ht
    | accepted _ hp => exact (hpassive hp rfl (.inl rfl)).elim
    | refused _ hp _ => exact (hpassive hp rfl (.inl rfl)).elim
  | reconciled ledger _ hg hopen hstate hl =>
    subst hg
    exact ⟨by simp [goLive, withProtocol], .inr ⟨by simp [goLive], hstate, rfl⟩⟩

theorem Move.live {s t : PrivateClient} {options : ClientOptions} {reader : WebsocketReader} {input : Input}
    (hm : Move options reader s input t) (hs : s.state ≠ .live) (ht : t.state = .live) : input = .markReconciled s.generation := by
  rcases hm.rises (fun h => hs (h.1.trans ht)) (.inr ht) with ⟨-, ⟨hr, -⟩ | ⟨-, -, hi⟩⟩
  · simp [hr] at ht
  · exact hi

theorem step_sound (options : ClientOptions) (reader : WebsocketReader) {s : PrivateClient} (h : Sound s) (input : Input × Env) :
    Sound (step options reader s input) := h.move (step_move options reader s input)

theorem run_sound (options : ClientOptions) (reader : WebsocketReader) (backoff : Net.ReconnectBackoff)
    (inputs : List (Input × Env)) : Sound (Runs.run (step options reader) (initial options backoff) inputs) :=
  Runs.run_invariant (step options reader) (Q := fun _ _ => True) (I := Sound)
    (fun _ input hi _ => step_sound options reader hi input) (Sound.initial options backoff) (Runs.along_true _ _ _)

end Private

end PredictFun.Wss
