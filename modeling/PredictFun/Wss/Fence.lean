import PredictFun.Wss.Delivery
import PredictFun.Wss.PublicSound

namespace PredictFun.Wss.Public

open Base Codec Client

variable {decode : FrameDecoder} {s t u : PublicClient} {input : Input} {reads : Bool}

def SameTopic (first second : PublicTopic) : Prop := first.kind = second.kind ∧ first.parameter = second.parameter

theorem SameTopic.name {first second : PublicTopic} {name other : Bytes} (h : SameTopic first second)
    (hf : publicTopicName first = .ok name) (hs : publicTopicName second = .ok other) : name = other := by
  obtain ⟨kind, parameter, precision⟩ := first
  obtain ⟨kind', parameter', precision'⟩ := second
  obtain ⟨rfl, rfl⟩ : kind = kind' ∧ parameter = parameter' := h
  cases kind <;> simp only [publicTopicName, fail] at hf hs <;> split_ifs at hf hs <;> exact Except.ok.inj (hf.symm.trans hs)

/-- While a reconnect is waited for, no frame that is left over is data of a topic or of an unknown topic, no channel
opens and no call is refused; and a topic does not come back to the generation that has delivered data of it. -/
def Fenced (decode : FrameDecoder) (s : PublicClient) (input : Input) : Prop :=
  match input with
  | .opened generation none => Due (.opening generation) s → s.reconnectPending = false
  | .received generation (.ok text) => Due (.reading generation) s → s.reconnectPending = true →
    ∀ message, decode text (resolver s.protocol.topics) = .ok message →
      (∀ topic, message ≠ .unknown topic) ∧ route message s.protocol.topics = none
  | .subscribe topic =>
    match publicTopicName topic with
    | .error _ => s.started = true ∧ s.reconnectPending = false
    | .ok name => contains name s.protocol.topics = false → ∀ datum ∈ delivered s.queue, datum.2 = s.generation →
      ¬SameTopic topic datum.1.topic
  | _ => True

structure Calm (s : PublicClient) : Prop where
  waiting : s.started = true → s.reconnectPending = true →
    s.state = .reconnectWait ∧ ∀ runtime ∈ s.protocol.topics, runtime.acknowledged = false ∧ runtime.fresh = false
  stopped : s.started = false → s.state = .stopped

namespace Calm

theorem of_connected (hs : s.started = true) (hp : s.reconnectPending = false) : Calm s where
  waiting := fun _ hp' => by simp [hp] at hp'
  stopped := fun hs' => by simp [hs] at hs'

theorem drop (hs : s.started = true) (reason : Bytes) : Calm (drop protocol reason s) where
  waiting := fun _ _ => by simp [protocol, TopicRuntime.reset]
  stopped := fun hs' => by simp [hs] at hs'

theorem passive (h : Calm s) (hp : Passive protocol reads s t) : Calm t :=
  hp.keeps (fun _ _ h => ⟨h.waiting, h.stopped⟩) (fun _ reason _ hs _ => drop hs reason) h

theorem renewed (hs : s.started = true) (h : Renewed protocol s t) : Calm t := by
  obtain ⟨ledger, ⟨rfl, -⟩ | ⟨reason, rfl, -⟩⟩ := h
  · exact of_connected (by simpa using hs) (by simp)
  · have hdrop : Calm (Client.drop protocol reason (renew protocol s)) := drop (by simpa using hs) reason
    exact ⟨hdrop.waiting, hdrop.stopped⟩

theorem hard_stop (reason : Bytes) (s : PublicClient) : Calm (hardStop protocol reason s) where
  waiting := fun hs => by simp at hs
  stopped := fun _ => by simp

theorem with_protocol (h : Calm s) {p : PublicProtocol}
    (ht : (∀ runtime ∈ s.protocol.topics, runtime.acknowledged = false ∧ runtime.fresh = false) →
      ∀ runtime ∈ p.topics, runtime.acknowledged = false ∧ runtime.fresh = false) : Calm { s with protocol := p } :=
  ⟨fun hs hp => ⟨(h.waiting hs hp).1, ht (h.waiting hs hp).2⟩, h.stopped⟩

theorem digest (h : Calm s) (hsound : Sound s) (hs : s.started = true) {message : PublicWsMessage}
    (hf : s.reconnectPending = true → (∀ topic, message ≠ .unknown topic) ∧ route message s.protocol.topics = none)
    (hd : Digest s message t) : Calm t := by
  cases hp : s.reconnectPending with
  | true =>
    obtain ⟨hunknown, hroute⟩ := hf hp
    have hpending := (hsound.waiting hs hp).1
    cases hd with
    | passive hp => exact h.passive hp
    | rejected hm hp => exact Calm.passive (s := forget _ s) (h.with_protocol id) hp
    | acknowledged hm | erased hm => simp [hpending] at hm
    | unknown ledger hl => exact absurd rfl (hunknown _)
    | accepted hr | refused hr => simp [hroute] at hr
  | false =>
    cases hd with
    | passive hp => exact h.passive hp
    | rejected hm hp => exact Calm.passive (s := forget _ s) (h.with_protocol id) hp
    | acknowledged hm hid hok hsub ledger hl =>
      exact of_connected (by simpa [withTopics, forget, withPending] using hs) (by simpa [withTopics, forget, withPending] using hp)
    | erased hm hid hok hsub ledger hl =>
      exact of_connected (by simpa [withTopics, forget, withPending] using hs) (by simpa [withTopics, forget, withPending] using hp)
    | unknown ledger hl => exact of_connected (by simpa using hs) (by simpa using hp)
    | accepted hr ho ledger hl hu hf =>
      subst hu
      exact of_connected (by simpa [withTopics] using hs) (by simpa [withTopics] using hp)
    | refused hr ho hu hf ledger hl ht _ =>
      subst hu
      refine Calm.passive ?_ ht
      exact of_connected (by simpa [withTopics] using hs) (by simpa [withTopics] using hp)

theorem move (h : Calm s) (hsound : Sound s) (hf : Fenced decode s input) (hm : Move decode s input t) : Calm t := by
  cases hm with
  | passive hp => exact h.passive hp
  | pop => exact ⟨h.waiting, h.stopped⟩
  | stop => exact hard_stop _ s
  | refused hs he => exact hard_stop _ _
  | start hs he hr => exact renewed rfl hr
  | reconnect hs hr => exact renewed hs hr
  | idle ledger hs hl => exact ⟨fun hs' => by simp [hs] at hs', fun _ => h.stopped hs⟩
  | opened hs hg hm hr hd hp =>
    refine Calm.passive (of_connected ?_ ?_) hp
    · simpa [withPending] using hs
    · simpa [withPending] using hf ⟨hm, hs, hg⟩
  | frame hs hg hm hdecode hd hp =>
    exact (h.digest hsound hs (fun hp => hf ⟨hm, hs, hg⟩ hp _ hdecode) hd).passive hp
  | degraded hn =>
    simp only [Fenced, hn] at hf
    exact of_connected (by simpa using hf.1) (by simpa using hf.2)
  | added hn hc hr ho hp =>
    refine Calm.passive (s := withPending _ (withTopics _ s)) (h.with_protocol fun hu runtime hm => ?_) hp
    rcases mem_emplace hm with hm | rfl
    · exact hu runtime hm
    · exact ⟨rfl, rfl⟩
  | removed hn hc ho => exact h.with_protocol fun hu runtime hm => hu runtime (List.mem_of_mem_filter hm)
  | withdrawn hn hc ho hr hp => exact Calm.passive (s := withPending _ s) (h.with_protocol id) hp

end Calm

def Stamped (s : PublicClient) : Prop :=
  ∀ datum ∈ delivered s.queue, datum.2 = s.generation → ∀ runtime ∈ s.protocol.topics, SameTopic runtime.topic datum.1.topic →
    ∃ last, runtime.lastTimestamp = some last ∧ ∀ timestamp, messageTimestamp datum.1.message = some timestamp → timestamp ≤ last

theorem Stamped.keep (h : Stamped s) (hd : delivered t.queue = delivered s.queue) (hg : t.generation = s.generation)
    (ht : ∀ runtime ∈ t.protocol.topics, ∃ other ∈ s.protocol.topics,
      other.topic = runtime.topic ∧ other.lastTimestamp = runtime.lastTimestamp) : Stamped t := by
  intro datum hm hgeneration runtime hr hsame
  obtain ⟨other, ho, htopic, hlast⟩ := ht runtime hr
  rw [hd] at hm
  rw [hg] at hgeneration
  rw [← htopic] at hsame
  rw [← hlast]
  exact h datum hm hgeneration other ho hsame

variable {runtime : TopicRuntime}

theorem route_spec {message : PublicWsMessage} {topics : List TopicRuntime}
    (h : route message topics = some runtime) : runtime ∈ topics ∧ ∃ timestamp, messageTimestamp message = some timestamp := by
  cases message <;> simp only [route, messageKind, messageParameter, reduceCtorEq] at h <;>
    exact ⟨List.mem_of_find?_eq_some h, _, rfl⟩

section

variable {message : PublicWsMessage} {runtime : TopicRuntime}

theorem Accepts.not_older (ha : Accepts s message runtime) (h : Stamped s) {datum : PublicData × ℕ} (hm : datum ∈ delivered s.queue)
    (hg : datum.2 = s.generation) (hsame : SameTopic runtime.topic datum.1.topic) {first second : ℤ}
    (hf : messageTimestamp datum.1.message = some first) (hs : messageTimestamp message = some second) : first ≤ second := by
  obtain ⟨last, hlast, hbound⟩ := h datum hm hg runtime (route_spec ha.1).1 hsame
  have hnew := ha.2.1
  simp only [regressed, hs, hlast, decide_eq_false_iff_not, not_lt] at hnew
  exact (hbound first hf).trans hnew

theorem stamped_joined (hsound : Sound s) (h : Stamped s) (ha : Accepts s message runtime) (ledger : Ledger) :
    Stamped (joined message runtime ledger s) := by
  intro datum hm hg other ho hsame
  obtain ⟨hmem, timestamp, htimestamp⟩ := route_spec ha.1
  rw [joined_delivered, List.mem_append, List.mem_singleton] at hm
  have hgeneration : (joined message runtime ledger s).generation = s.generation := announce_generation _
  have htopics : (joined message runtime ledger s).protocol.topics = modify runtime.name (refresh message) s.protocol.topics := by
    simp [joined, refreshed, withTopics]
  rw [hgeneration] at hg
  rw [htopics] at ho
  obtain ⟨before, hb, he⟩ := List.mem_map.mp ho
  by_cases hname : before.name = runtime.name
  · -- the topic of the message: names are unique
    obtain rfl : before = runtime := List.inj_on_of_nodup_map hsound.unique hb hmem hname
    rw [if_pos rfl] at he
    subst he
    refine ⟨timestamp, by simp [refresh, htimestamp], fun older holder => ?_⟩
    rcases hm with hm | rfl
    · exact ha.not_older h hm hg hsame holder htimestamp
    · exact (Option.some.inj (holder.symm.trans htimestamp)).le
  · rw [if_neg hname] at he
    subst he
    rcases hm with hm | rfl
    · exact h datum hm hg _ hb hsame
    · exact absurd (hsame.name (hsound.named _ hb) (hsound.named _ hmem)) hname

end

structure Timed (s : PublicClient) : Prop where
  dated : ∀ datum ∈ delivered s.queue, datum.2 ≤ s.generation
  stamped : s.started = true → s.reconnectPending = false → Stamped s
  ordered : (delivered s.queue).Pairwise fun first second => first.2 = second.2 → SameTopic first.1.topic second.1.topic →
    ∀ earlier later, messageTimestamp first.1.message = some earlier → messageTimestamp second.1.message = some later →
      earlier ≤ later

def Kept (s : PublicClient) : Prop := s.started = true → s.reconnectPending = false → Stamped s

namespace Kept

theorem passive (h : Kept s) (hp : Passive protocol reads s t) : Kept t :=
  hp.keeps (fun _ _ h => h) (fun _ _ _ _ _ => fun _ hp => by simp at hp) h

theorem renewed (hd : ∀ datum ∈ delivered s.queue, datum.2 ≤ s.generation) (hr : Renewed protocol s t) : Kept t := by
  intro _ _ datum hm hg
  rw [(Quiet.renewed hr rfl).delivered] at hm
  rw [hr.generation] at hg
  exact absurd (hd datum hm) (by omega)

theorem announce {update : List TopicRuntime → List TopicRuntime} {request : PendingRequest} (h : Kept s)
    (ht : ∀ runtime ∈ update s.protocol.topics, ∃ other ∈ s.protocol.topics,
      other.topic = runtime.topic ∧ other.lastTimestamp = runtime.lastTimestamp) :
    Kept (Public.announce (withTopics update (forget request s))) := by
  intro hs hp
  have hq : Quiet s (Public.announce (withTopics update (forget request s))) := announce_quiet rfl rfl rfl
  rw [announce_started] at hs
  rw [announce_reconnectPending] at hp
  refine (h hs hp).keep hq.delivered (announce_generation _) ?_
  simpa [withTopics, forget, withPending] using ht

theorem digest (h : Kept s) (hsound : Sound s) {message : PublicWsMessage} (hd : Digest s message t) : Kept t := by
  cases hd with
  | passive hp => exact h.passive hp
  | rejected hm hp => exact Kept.passive (s := forget _ s) h hp
  | acknowledged hm hid hok hsub ledger hl =>
    refine h.announce fun runtime hr => ?_
    obtain ⟨other, ho, rfl | rfl⟩ := mem_modify hr
    · exact ⟨_, ho, rfl, rfl⟩
    · exact ⟨_, ho, rfl, rfl⟩
  | erased hm hid hok hsub ledger hl => exact h.announce fun runtime hr => ⟨runtime, List.mem_of_mem_filter hr, rfl, rfl⟩
  | @unknown topic reason ledger hl =>
    intro hs hp
    have hq : Quiet s (setState .degraded reason true s) := .set_state _ _ _ rfl (.inl rfl)
    refine (h (by simpa using hs) (by simpa using hp)).keep hq.delivered (by simp) fun runtime hr => ?_
    exact ⟨runtime, by simpa using hr, rfl, rfl⟩
  | @accepted _ runtime hr ho ledger hl u hu hf =>
    subst hu
    intro hs hp
    have hj := stamped_joined hsound (h (by simpa [withTopics] using hs) (by simpa [withTopics] using hp)) ⟨hr, ho, hf⟩ ledger
    simpa [joined, refreshed, withTopics] using hj
  | refused hr ho hu hf ledger hl ht hp => exact fun _ hp' => by simp [hp] at hp'

theorem move (h : Kept s) (hsound : Sound s) (hdated : ∀ datum ∈ delivered s.queue, datum.2 ≤ s.generation)
    (hf : Fenced decode s input) (hm : Move decode s input t) : Kept t := by
  cases hm with
  | passive hp => exact h.passive hp
  | pop =>
    intro hs hp
    exact (h hs hp).keep (Quiet.pop s).delivered rfl fun runtime hr => ⟨runtime, hr, rfl, rfl⟩
  | stop => exact fun hs => by simp at hs
  | refused hs he => exact fun hs => by simp at hs
  | start hs he hr => exact renewed (s := { withTopics _ s with started := true }) hdated hr
  | reconnect hs hr => exact renewed hdated hr
  | idle ledger hs hl => exact fun hs' => by simp [hs] at hs'
  | opened hs hg hm hr hd hp =>
    refine Kept.passive ?_ hp
    intro _ hp'
    have hstamped := h hs (by simpa [withPending] using hp')
    refine hstamped.keep (Quiet.open_session s).delivered (by simp [withPending]) fun runtime hr => ?_
    exact ⟨runtime, by simpa [withPending] using hr, rfl, rfl⟩
  | frame hs hg hm hdecode hd hp => exact (h.digest hsound hd).passive hp
  | @degraded topic error hn =>
    intro hs hp
    have hq : Quiet s (setState .degraded error.message true s) := .set_state _ _ _ rfl (.inl rfl)
    refine (h (by simpa using hs) (by simpa using hp)).keep hq.delivered (by simp) fun runtime hr => ?_
    exact ⟨runtime, by simpa using hr, rfl, rfl⟩
  | added hn hc hr ho hp =>
    refine Kept.passive (s := withPending _ (withTopics _ s)) ?_ hp
    intro hs hp' datum hm hg runtime hr hsame
    simp only [Fenced, hn] at hf
    rcases mem_emplace hr with hr | rfl
    · exact h hs hp' datum hm hg runtime hr hsame
    · exact absurd hsame (hf hc datum hm hg)
  | removed hn hc ho =>
    intro hs hp
    exact (h hs hp).keep rfl rfl fun runtime hr => ⟨runtime, List.mem_of_mem_filter hr, rfl, rfl⟩
  | withdrawn hn hc ho hr hp => exact Kept.passive (s := withPending _ s) h hp

end Kept

theorem Move.generation_le (hm : Move decode s input t) : s.generation ≤ t.generation := by
  cases hm with
  | passive hp => exact hp.generation.ge
  | pop | idle | removed => exact le_refl _
  | stop => exact (hardStop_generation ..).ge
  | refused hs he => simp [withTopics]
  | start hs he hr => exact hr.generation ▸ Nat.le_succ _
  | reconnect hs hr => exact hr.generation ▸ Nat.le_succ _
  | opened hs hg hf hr hd hp => exact (hp.generation.trans (openSession_generation s)).ge
  | frame hs hg hf hm hd hp => exact (hp.generation.trans hd.generation).ge
  | degraded hn => exact (setState_generation ..).ge
  | added hn hc hr ho hp => exact hp.generation.ge
  | withdrawn hn hc ho hr hp => exact hp.generation.ge

theorem Timed.move (h : Timed s) (hsound : Sound s) (hf : Fenced decode s input) (hm : Move decode s input t) : Timed t := by
  have hstamped : Kept t := Kept.move h.stamped hsound h.dated hf hm
  have hg := hm.generation_le
  rcases hm.delivery with hq | ⟨text, message, runtime, ledger, hdue, rfl, hdecode, ha, hp⟩
  · exact ⟨fun datum hm => (h.dated datum (hq.delivered ▸ hm)).trans hg, hstamped, hq.delivered ▸ h.ordered⟩
  · have hdelivered := (Quiet.passive hp).delivered.trans (joined_delivered message runtime ledger s)
    have hpending : s.reconnectPending = false := by
      by_contra hpending
      have hroute := (hf hdue (by simpa using hpending) message hdecode).2
      rw [ha.1] at hroute
      cases hroute
    refine ⟨fun datum hm => ?_, hstamped, ?_⟩
    · rw [hdelivered, List.mem_append, List.mem_singleton] at hm
      rcases hm with hm | rfl
      · exact (h.dated datum hm).trans hg
      · exact hg
    · rw [hdelivered, List.pairwise_append]
      refine ⟨h.ordered, List.pairwise_singleton _ _, fun first hfirst second hsecond hsame htopic earlier later he hl => ?_⟩
      rw [List.mem_singleton] at hsecond
      subst hsecond
      exact ha.not_older (h.stamped hdue.2.1 hpending) hfirst hsame ⟨htopic.1.symm, htopic.2.symm⟩ he hl

theorem enrol_unheard {topics : List PublicTopic} {unique : List Bytes} {admitted : List TopicRuntime}
    (hm : runtime ∈ (enrol topics unique admitted).1) :
    runtime ∈ admitted ∨ runtime.acknowledged = false ∧ runtime.fresh = false := by
  refine enrol_induction topics (I := fun enrolled => ∀ runtime ∈ enrolled, runtime ∈ admitted ∨
    runtime.acknowledged = false ∧ runtime.fresh = false) (fun topic _ name _ enrolled hi runtime hm => ?_) unique
    (fun runtime hm => .inl hm) runtime hm
  rcases mem_emplace hm with hm | rfl
  · exact hi runtime hm
  · exact .inr ⟨rfl, rfl⟩

theorem Move.unheard (hm : Move decode s input t) (hsound : Sound s) (hf : Fenced decode s input)
    (hw : s.started = true → s.reconnectPending = true) (hg : t.generation = s.generation)
    (hr : runtime ∈ t.protocol.topics) : runtime ∈ s.protocol.topics ∨ runtime.acknowledged = false ∧ runtime.fresh = false := by
  cases hm with
  | passive hp =>
    obtain ⟨ledger, rfl⟩ := hp.of_waiting hw
    exact .inl hr
  | pop | idle => exact .inl hr
  | stop => exact .inl (by simpa [protocol] using hr)
  | refused hs he =>
    simp only [hardStop_protocol, protocol, withTopics] at hr
    rcases he with rfl | rfl
    · exact .inl hr
    · exact enrol_unheard hr
  | start hs he hnew =>
    have := hnew.generation
    dsimp only [withTopics] at this
    omega
  | reconnect hs hnew =>
    have := hnew.generation
    omega
  | opened hs hg hm =>
    have := hf ⟨hm, hs, hg⟩
    rw [hw hs] at this
    cases this
  | frame hs hg hm hdecode hd hp =>
    obtain ⟨hunknown, hroute⟩ := hf ⟨hm, hs, hg⟩ (hw hs) _ hdecode
    have hpending := (hsound.waiting hs (hw hs)).1
    cases hd with
    | passive hq =>
      obtain ⟨ledger, rfl⟩ := hq.of_waiting hw
      obtain ⟨ledger', rfl⟩ := hp.of_waiting hw
      exact .inl hr
    | rejected hm | acknowledged hm | erased hm => simp [hpending] at hm
    | unknown ledger hl => exact absurd rfl (hunknown _)
    | accepted hr | refused hr => simp [hroute] at hr
  | degraded hn => exact .inl (by simpa using hr)
  | added hn hc _ ho hp =>
    obtain ⟨ledger, rfl⟩ := hp.of_waiting hw
    rcases mem_emplace hr with hr | rfl
    · exact .inl hr
    · exact .inr ⟨rfl, rfl⟩
  | removed hn hc ho => exact .inl (List.mem_of_mem_filter hr)
  | withdrawn hn hc ho _ hp =>
    obtain ⟨ledger, rfl⟩ := hp.of_waiting hw
    exact .inl hr

theorem Move.quiet (hm : Move decode s input t) (hf : Fenced decode s input) (hw : s.started = true → s.reconnectPending = true) :
    Quiet s t := by
  rcases hm.delivery with hq | ⟨text, message, runtime, ledger, hdue, rfl, hdecode, ha, -⟩
  · exact hq
  · have hroute := (hf hdue (hw hdue.2.1) message hdecode).2
    rw [ha.1] at hroute
    cases hroute

theorem fenced_until_connect (options : ClientOptions) (decode : FrameDecoder) (backoff : Net.ReconnectBackoff)
    (inputs : List (Input × Env))
    (h : Runs.Along (step options decode) (fun s input => Fenced decode s input.1) (initial options backoff) inputs) :
    (∀ before, before <+: inputs → Calm (Runs.run (step options decode) (initial options backoff) before)) ∧
    (∀ before input s t, before ++ [input] <+: inputs → s = Runs.run (step options decode) (initial options backoff) before →
      t = Runs.run (step options decode) (initial options backoff) (before ++ [input]) →
      (s.started = true → s.reconnectPending = true) → t.generation = s.generation →
      delivered t.queue = delivered s.queue ∧
      ∀ runtime ∈ t.protocol.topics, runtime.acknowledged = true ∨ runtime.fresh = true → runtime ∈ s.protocol.topics) ∧
    (delivered (Runs.run (step options decode) (initial options backoff) inputs).queue).Pairwise fun first second =>
      first.2 = second.2 → SameTopic first.1.topic second.1.topic →
      ∀ earlier later, messageTimestamp first.1.message = some earlier → messageTimestamp second.1.message = some later →
        earlier ≤ later := by
  have hall : ∀ before, before <+: inputs → Calm (Runs.run (step options decode) (initial options backoff) before) ∧
      Timed (Runs.run (step options decode) (initial options backoff) before) := by
    intro before ⟨rest, hrest⟩
    rw [← hrest] at h
    have hbefore := ((Runs.along_append _ _ _ _ _).mp h).1
    refine (Runs.run_invariant (step options decode) (I := fun s => Sound s ∧ Calm s ∧ Timed s)
      (fun s input hi hf => ?_) ⟨Sound.initial options backoff, ?_, ?_⟩ hbefore).2
    · have hm := step_move options decode s input
      exact ⟨hi.1.move hm, hi.2.1.move hi.1 hf hm, hi.2.2.move hi.1 hf hm⟩
    · exact ⟨fun hs => by simp [initial] at hs, fun _ => rfl⟩
    · exact ⟨fun _ hm => by simp [initial, delivered] at hm, fun hs => by simp [initial] at hs, List.Pairwise.nil⟩
  refine ⟨fun before hb => (hall before hb).1, ?_, (hall inputs List.prefix_rfl).2.ordered⟩
  rintro before input s t hb rfl rfl hw hg
  have hf := (Runs.along_iff _ _ _ _).mp h before input hb
  rw [Runs.run_append] at hg ⊢
  have hm := step_move options decode (Runs.run (step options decode) (initial options backoff) before) input
  refine ⟨(hm.quiet hf hw).delivered, fun runtime hr hheard => ?_⟩
  rcases hm.unheard (run_sound options decode backoff before) hf hw hg hr with hr | ⟨ha, hfresh⟩
  · exact hr
  · simp [ha, hfresh] at hheard

theorem fenced_of_connected (hp : s.reconnectPending = false) (hn : ∀ topic, input ≠ .subscribe topic) : Fenced decode s input := by
  cases input with
  | subscribe topic => exact absurd rfl (hn topic)
  | opened generation result =>
    cases result with
    | none => exact fun _ => hp
    | some reason => trivial
  | received generation result =>
    cases result with
    | error reason => trivial
    | ok text => exact fun _ hp' => by simp [hp] at hp'
  | _ => trivial

def heartbeatRun : List (Input × Env) :=
  [(.start [orderbook], {}), (.opened 1 none, {}), (.received 1 (.ok [0, 1]), {}), (.received 1 (.ok [1, 200]), {}),
    (.heartbeatExpired 1, {})]

def lateFrame : List (Input × Env) := heartbeatRun ++ [(.received 1 (.ok [1, 199]), ({} : Env))]

theorem late_frame_accepted :
    (shortRun 8 heartbeatRun).state = .reconnectWait ∧ (shortRun 8 lateFrame).reconnectPending = true ∧
    (shortRun 8 lateFrame).state = .subscribing ∧ (shortRun 8 lateFrame).protocol.topics.all TopicRuntime.fresh = true ∧
    (delivered (shortRun 8 lateFrame).queue).map (fun datum => (messageTimestamp datum.1.message, datum.2)) =
      [(some 200, 1), (some 199, 1)] := by
  refine ⟨?_, ?_, ?_, ?_, ?_⟩ <;> decide

theorem reconnect_wait_after_heartbeat :
    (shortRun 8 heartbeatRun).started = true ∧ (shortRun 8 heartbeatRun).reconnectPending = true ∧
    (shortRun 8 heartbeatRun).state = .reconnectWait ∧
    ∀ runtime ∈ (shortRun 8 heartbeatRun).protocol.topics, runtime.acknowledged = false ∧ runtime.fresh = false := by
  have hs : (shortRun 8 heartbeatRun).started = true := by decide
  have hp : (shortRun 8 heartbeatRun).reconnectPending = true := by decide
  have halong : Runs.Along (step { maxPendingEvents := 8 } shortDecoder) (fun s input => Fenced shortDecoder s input.1)
      (initial { maxPendingEvents := 8 } (.ofPolicy {} 1)) heartbeatRun := by
    refine Runs.along_mono _ (fun s input hq => fenced_of_connected hq.1 hq.2) (Runs.along_and _
      (Runs.along_of_inits (step { maxPendingEvents := 8 } shortDecoder) (C := fun s => s.reconnectPending = false) ?_)
      (Runs.along_of_forall _ (D := fun input => ∀ topic, input.1 ≠ .subscribe topic) ?_ _))
    · decide
    · simp [heartbeatRun]
  exact ⟨hs, hp, ((fenced_until_connect _ _ _ _ halong).1 heartbeatRun List.prefix_rfl).waiting hs hp⟩

end PredictFun.Wss.Public
