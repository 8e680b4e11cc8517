import PredictFun.Wss.Delivery
import PredictFun.Wss.Numbered
import PredictFun.Wss.Overflow
import PredictFun.Wss.Restart

namespace PredictFun.Wss.Public

open Base Codec Client

variable {s t : PublicClient} {p : PublicProtocol} {desired : Bytes → Prop}

def wants (desired : Bytes → Prop) : Input → Bytes → Prop
  | .subscribe topic, name => publicTopicName topic = .ok name ∨ desired name
  | .unsubscribe topic, name => publicTopicName topic ≠ .ok name ∧ desired name
  | _, name => desired name

def asked (topics : List PublicTopic) (inputs : List (Input × Env)) : Bytes → Prop :=
  inputs.foldl (fun desired input => wants desired input.1) (fun name => ∃ topic ∈ topics, publicTopicName topic = .ok name)

def Leaving (name : Bytes) (p : PublicProtocol) : Prop := ∃ request ∈ p.pending, request.subscribe = false ∧ request.topicName = name

def Tracks (desired : Bytes → Prop) (p : PublicProtocol) : Prop :=
  ∀ name, desired name ↔ name ∈ p.topics.map TopicRuntime.name ∧ ¬Leaving name p

theorem Tracks.of_settled (h : Tracks desired p) (hp : p.pending = []) (name : Bytes) :
    name ∈ p.topics.map TopicRuntime.name ↔ desired name := by
  have hn : ¬Leaving name p := fun ⟨request, hm, _⟩ => by simp [hp] at hm
  rw [h name]
  exact ⟨fun hm => ⟨hm, hn⟩, fun h => h.1⟩

theorem Tracks.congr {q : PublicProtocol} (h : Tracks desired p) (hn : q.topics.map TopicRuntime.name = p.topics.map TopicRuntime.name)
    (hl : ∀ name, Leaving name q ↔ Leaving name p) : Tracks desired q := by
  intro name
  rw [h name, hn, hl name]

theorem leaving_append {requests : List PendingRequest} {name : Bytes} :
    Leaving name { p with pending := p.pending ++ requests } ↔
      Leaving name p ∨ ∃ request ∈ requests, request.subscribe = false ∧ request.topicName = name := by
  simp only [Leaving, List.mem_append, or_and_right, exists_or]

theorem leaving_append_subscribes {requests : List PendingRequest} (hr : ∀ request ∈ requests, request.subscribe = true) {name : Bytes} :
    Leaving name { p with pending := p.pending ++ requests } ↔ Leaving name p := by
  rw [leaving_append]
  refine ⟨fun h => h.resolve_right ?_, .inl⟩
  rintro ⟨request, hm, hs, -⟩
  rw [hr request hm] at hs
  cases hs

theorem leaving_forget (h : Numbered s) {request : PendingRequest} (hm : request ∈ s.protocol.pending) (name : Bytes) :
    Leaving name (forget request s).protocol ↔ ∃ other ∈ s.protocol.pending, other ≠ request ∧ other.subscribe = false ∧ other.topicName = name := by
  have hid : ∀ other ∈ s.protocol.pending, other.requestId = request.requestId ↔ other = request := fun other ho =>
    ⟨fun he => List.inj_on_of_nodup_map h.unique ho hm he, fun he => he ▸ rfl⟩
  simp only [Leaving, forget, withPending, List.mem_filter, decide_eq_true_eq]
  constructor
  · rintro ⟨other, ⟨ho, hne⟩, hs, hn⟩
    exact ⟨other, ho, fun he => hne ((hid other ho).mpr he), hs, hn⟩
  · rintro ⟨other, ho, hne, hs, hn⟩
    exact ⟨other, ⟨ho, fun he => hne ((hid other ho).mp he)⟩, hs, hn⟩

theorem Tracks.answer (h : Tracks desired s.protocol) (hn : Numbered s) {request : PendingRequest} (hm : request ∈ s.protocol.pending) :
    Tracks desired (withTopics (answered request) (forget request s)).protocol := by
  have hl : ∀ name, Leaving name (withTopics (answered request) (forget request s)).protocol ↔ Leaving name (forget request s).protocol :=
    fun name => Iff.rfl
  intro name
  rw [h name, hl name, leaving_forget hn hm name]
  change _ ↔ name ∈ (answered request s.protocol.topics).map TopicRuntime.name ∧ _
  unfold answered
  cases hsub : request.subscribe with
  | true =>
    rw [if_pos rfl, names_modify request.topicName acknowledge (fun _ => rfl)]
    refine and_congr_right' (not_congr ⟨?_, ?_⟩)
    · rintro ⟨other, ho, hs, he⟩
      exact ⟨other, ho, fun h => by simp [h, hsub] at hs, hs, he⟩
    · rintro ⟨other, ho, -, hs, he⟩
      exact ⟨other, ho, hs, he⟩
  | false =>
    rw [if_neg (by simp), names_erase, List.mem_filter, decide_eq_true_eq]
    constructor
    · rintro ⟨hin, hstays⟩
      refine ⟨⟨hin, ?_⟩, ?_⟩
      · rintro rfl
        exact hstays ⟨request, hm, hsub, rfl⟩
      · rintro ⟨other, ho, -, hs, he⟩
        exact hstays ⟨other, ho, hs, he⟩
    · rintro ⟨⟨hin, hne⟩, hstays⟩
      refine ⟨hin, ?_⟩
      rintro ⟨other, ho, hs, he⟩
      by_cases heq : other = request
      · exact hne (by rw [← he, heq])
      · exact hstays ⟨other, ho, heq, hs, he⟩

section

variable (env : Env)

def Taken (s : PublicClient) : Prop := s.ledger.nextRequestId ≤ maxRequestId ∧ ∀ outgoing, env.writeRefusal outgoing = none

def Handled (s : PublicClient) : PublicWsMessage → Prop
  | .heartbeat timestampMs => 0 < timestampMs ∧ env.writeRefusal (.heartbeat timestampMs) = none
  | .subscription response =>
    ∃ request, s.protocol.pending.find? (fun request => request.requestId = response.requestId.toNat) = some request ∧
      response.success = true ∧ (request.subscribe = true → contains request.topicName s.protocol.topics = true)
  | .unknown _ => True
  | message => ∃ runtime, Accepts s message runtime

variable {env}

theorem sendSubscription_taken {name : Bytes} (isSubscribe : Bool)
    (hn : ∀ runtime ∈ s.protocol.topics, publicTopicName runtime.topic = .ok runtime.name)
    (hm : contains name s.protocol.topics = true) (hc : s.channel = true) (ht : Taken env s) :
    ∃ ledger, sendSubscription env name isSubscribe s =
      { withPending (· ++ [⟨s.ledger.nextRequestId, isSubscribe, name⟩]) s with ledger := ledger } := by
  rw [sendSubscription_eq env isSubscribe hn hm, if_neg (not_lt.mpr ht.1)]
  obtain ⟨ledger, he, -⟩ := write_kept env (P := protocol)
    (s := withPending (· ++ [⟨s.ledger.nextRequestId, isSubscribe, name⟩]) s.takeRequestId) hc (ht.2 _)
  exact ⟨ledger, he⟩

theorem write_taken {outgoing : Outgoing} (hr : env.writeRefusal outgoing = none) :
    ∃ ledger, write protocol env outgoing s = { s with ledger := ledger } := by
  unfold write
  split_ifs
  · exact ⟨_, rfl⟩
  · dsimp only
    rw [hr]
    exact ⟨_, rfl⟩

theorem readNext_taken (generation : ℕ) (hr : env.readRefusal = none) :
    ∃ ledger, readNext protocol env generation s = { s with ledger := ledger } := by
  unfold readNext
  split_ifs
  · exact ⟨_, rfl⟩
  · rw [hr]
    exact ⟨_, rfl⟩

theorem updateFreshnessState_protocol (s : PublicClient) : (updateFreshnessState s).protocol = s.protocol := by
  unfold updateFreshnessState
  split_ifs
  · rfl
  · dsimp only
    split_ifs <;> simp

variable {message : PublicWsMessage}

theorem handleMessage_tracks (h : Tracks desired s.protocol) (hn : Numbered s) (hs : s.started = true)
    (hm : Handled env s message) : Tracks desired (handleMessage env message s).protocol := by
  have hdata : ∀ {message}, (∃ runtime, Accepts s message runtime) → Tracks desired (handleData env message s).protocol := by
    rintro message ⟨runtime, hr, ho, hf⟩
    obtain ⟨kind, hkind⟩ : ∃ kind, messageKind message = some kind := by
      cases message <;> simp [route, messageKind, messageParameter] at hr ⊢
    obtain ⟨parameter, hparameter⟩ : ∃ parameter, messageParameter message = some parameter := by
      cases message <;> simp [route, messageKind, messageParameter] at hr ⊢
    obtain ⟨ledger, -, hu⟩ := updateFreshnessState_eq (s := withTopics (modify runtime.name (refresh message)) s) hs
    have hfull : (updateFreshnessState (withTopics (modify runtime.name (refresh message)) s)).queue.full = false := by rw [hu]; exact hf
    unfold handleData
    rw [if_neg (by simp [hkind, hparameter]), hr]
    simp only [ho, hfull, Bool.false_eq_true, if_false]
    rw [updateFreshnessState_protocol]
    exact h.congr (names_modify runtime.name (refresh message) (fun _ => rfl) _) (fun _ => Iff.rfl)
  cases message with
  | heartbeat timestampMs =>
    obtain ⟨hpos, hr⟩ := hm
    obtain ⟨ledger, he⟩ := write_taken (s := armHeartbeat s) hr
    simp only [handleMessage, echoHeartbeat, encodeHeartbeatResponse, if_neg (not_le.mpr hpos), he]
    exact h
  | subscription response =>
    obtain ⟨request, hfind, hok, hc⟩ := hm
    have ha := h.answer hn (List.mem_of_find?_eq_some hfind)
    simp only [handleMessage, handleResponse, hfind, hok, Bool.true_eq_false, if_false]
    cases hsub : request.subscribe with
    | true =>
      have hcontains : contains request.topicName (forget request s).protocol.topics = true := hc hsub
      have heffect : answered request = modify request.topicName acknowledge := funext fun topics => by simp [answered, hsub]
      simp only [if_true, hcontains]
      rw [updateFreshnessState_protocol, ← heffect]
      exact ha
    | false =>
      have heffect : answered request = erase request.topicName := funext fun topics => by simp [answered, hsub]
      simp only [Bool.false_eq_true, if_false]
      rw [updateFreshnessState_protocol, ← heffect]
      exact ha
  | unknown topic =>
    simp only [handleMessage, setState_protocol]
    exact h
  | _ => exact hdata hm

theorem accepts_ledger {runtime : TopicRuntime} (ledger : Ledger) (h : Accepts s message runtime) :
    Accepts { s with ledger := ledger } message runtime := by
  refine ⟨h.1, h.2.1, ?_⟩
  have hr : refreshed message runtime { s with ledger := ledger } = { refreshed message runtime s with ledger := ledger } :=
    setState_update _ _ _ (withTopics (modify runtime.name (refresh message)) s) ledger
  rw [hr]
  exact h.2.2

theorem Handled.with_ledger (ledger : Ledger) (h : Handled env s message) :
    Handled env { s with ledger := ledger } message := by
  have hdata : ∀ {message}, (∃ runtime, Accepts s message runtime) → ∃ runtime, Accepts { s with ledger := ledger } message runtime :=
    fun ⟨runtime, ha⟩ => ⟨runtime, accepts_ledger ledger ha⟩
  cases message with
  | heartbeat | subscription | unknown => exact h
  | _ => exact hdata h

/-- What does not cost the connection while a topic is about to leave. -/
def Keeps (decode : FrameDecoder) (s : PublicClient) (input : Input × Env) : Prop :=
  match input.1 with
  | .opened generation _ => ¬Due (.opening generation) s
  | .received generation result => Due (.reading generation) s → input.2.readRefusal = none ∧ ∃ text message, result = .ok text ∧
    decode text (resolver s.protocol.topics) = .ok message ∧ Handled input.2 s message
  | .wrote generation result => Due (.writing generation) s → result = none
  | .reconnectExpired => .reconnect ∉ s.ledger.waits
  | .heartbeatExpired generation => .heartbeat generation ∈ s.ledger.waits → generation ≠ s.generation
  | .ackExpired generation => .acknowledgement generation ∈ s.ledger.waits → generation ≠ s.generation
  | .subscribe _ | .unsubscribe _ => Taken input.2 s
  | _ => True

theorem received_tracks {decode : FrameDecoder} {text : Bytes} (h : Tracks desired s.protocol)
    (hn : Numbered s) (hs : s.started = true) (hr : env.readRefusal = none)
    (hd : decode text (resolver s.protocol.topics) = .ok message) (hm : Handled env s message) :
    Tracks desired (received decode env s.generation (.ok text) s).protocol := by
  obtain ⟨u, hu⟩ : ∃ u, u = s.count (fun stats => { stats with messages := stats.messages + 1 }) := ⟨_, rfl⟩
  have htracks : Tracks desired (handleMessage env message u).protocol := by
    rw [hu]
    exact handleMessage_tracks (s := s.count _) h ⟨hn.given, hn.unique⟩ hs (hm.with_ledger _)
  have hdecode : decode text (resolver u.protocol.topics) = .ok message := by rw [hu]; exact hd
  obtain ⟨ledger, he⟩ := readNext_taken (s := handleMessage env message u) s.generation hr
  rw [received, if_neg (by simp [hs])]
  dsimp only
  rw [← hu, hdecode]
  dsimp only
  rw [he]
  exact htracks

theorem Tracks.kept (options : ClientOptions) {decode : FrameDecoder} {input : Input} (h : Tracks desired s.protocol) (hn : Numbered s)
    (hc : input.isCall = false) (hk : Keeps decode s (input, env)) :
    Tracks desired (handle options decode env input s).protocol := by
  cases input with
  | start | stop | subscribe | unsubscribe => cases hc
  | opened generation result =>
    obtain ⟨ledger, -, he⟩ := completing_ignored (opened env generation result) hk
      (fun u hu => by unfold opened; exact if_pos hu)
    simp only [handle, he]
    exact h
  | received generation result =>
    by_cases hdue : Due (.reading generation) s
    · obtain ⟨hr, text, message, rfl, hd, hm⟩ := hk hdue
      obtain ⟨hflight, hs, rfl⟩ := hdue
      obtain ⟨ledger, -, -, hnext, he⟩ := completing_due (received decode env s.generation (.ok text)) hflight
      simp only [handle, he]
      exact received_tracks (s := { s with ledger := ledger }) h ⟨by simpa [hnext] using hn.given, hn.unique⟩ hs hr hd (hm.with_ledger ledger)
    · obtain ⟨ledger, -, he⟩ := completing_ignored (received decode env generation result) hdue
        (fun u hu => by unfold received; exact if_pos hu)
      simp only [handle, he]
      exact h
  | wrote generation result =>
    by_cases hdue : Due (.writing generation) s
    · obtain rfl := hk hdue
      obtain ⟨ledger, -, -, -, he⟩ := completing_due (wrote protocol env generation none) hdue.1
      simp only [handle, he, wrote]
      split_ifs <;> exact h
    · obtain ⟨ledger, -, he⟩ := completing_ignored (wrote protocol env generation result) hdue
        (fun u hu => by unfold wrote; exact if_pos hu)
      simp only [handle, he]
      exact h
  | reconnectExpired =>
    simp only [handle, expiring, if_neg hk]
    exact h
  | heartbeatExpired generation =>
    simp only [handle, expiring, Client.heartbeatExpired]
    split_ifs with hm he
    · exact absurd he.2 (hk hm)
    · exact h
    · exact h
  | ackExpired generation =>
    simp only [handle, expiring, ackExpired]
    split_ifs with hm he
    · exact absurd he.2.1 (hk hm)
    · exact h
    · exact h
  | pop => exact h

theorem Tracks.join {q : PublicProtocol} {name : Bytes} (h : Tracks desired p) (topic : PublicTopic) (hn : ¬Leaving name p)
    (ht : q.topics.map TopicRuntime.name = (emplace name topic p.topics).map TopicRuntime.name)
    (hl : ∀ name, Leaving name q ↔ Leaving name p) : Tracks (fun other => other = name ∨ desired other) q := by
  intro other
  rw [ht, names_emplace, hl other]
  constructor
  · rintro (rfl | hd)
    · exact ⟨.inr rfl, hn⟩
    · exact ⟨.inl ((h other).mp hd).1, ((h other).mp hd).2⟩
  · rintro ⟨hin | rfl, hstays⟩
    · exact .inr ((h other).mpr ⟨hin, hstays⟩)
    · exact .inl rfl

theorem addTopic_tracks {topic : PublicTopic} (hsound : Sound s) (h : Tracks desired s.protocol)
    (hleave : ∀ name, publicTopicName topic = .ok name → ¬Leaving name s.protocol)
    (hk : (∃ name, Leaving name s.protocol) → Taken env s) :
    Tracks (wants desired (.subscribe topic)) (addTopic env topic s).protocol := by
  rcases addTopic_cases env topic s with ⟨error, hn, he⟩ | ⟨name, hn, hc, he⟩ | ⟨name, hn, hc, requests, hr, -, hp⟩
  · rw [he]
    simpa [wants, hn, Tracks] using h
  · rw [he]
    intro other
    simp only [wants, hn, Except.ok.injEq]
    refine ⟨?_, fun hm => .inr ((h other).mpr hm)⟩
    rintro (rfl | hd)
    · exact ⟨contains_iff.mp hc, hleave name hn⟩
    · exact (h other).mp hd
  · have hwants : wants desired (.subscribe topic) = fun other => other = name ∨ desired other := by
      funext other
      simp [wants, hn, eq_comm]
    rw [hwants]
    refine h.join topic (hleave name hn) (names_passive hp) (fun other => ?_)
    by_cases hany : ∃ name, Leaving name s.protocol
    · -- the channel takes the request, so nothing else happens
      have htaken := hk hany
      unfold addTopic
      rw [hn]
      simp only [hc, Bool.false_eq_true, if_false]
      split_ifs with hopen
      · obtain ⟨ledger, hsent⟩ := sendSubscription_taken (s := withTopics (emplace name topic) s) true (hsound.emplace hn).named
          (contains_iff.mpr (names_emplace.mpr (.inr rfl))) hopen.2.2 htaken
        rw [hsent]
        exact leaving_append_subscribes (p := { s.protocol with topics := _ }) (by simp)
      · exact Iff.rfl
    · refine iff_of_false (fun hl => ?_) (fun hl => hany ⟨other, hl⟩)
      obtain ⟨request, hm, hs, hname⟩ := hl
      rcases List.mem_append.mp ((Passive.pending hp).subset hm) with hm | hm
      · exact hany ⟨_, request, hm, hs, rfl⟩
      · rw [(hr request hm).1] at hs
        cases hs

theorem removeTopic_tracks {topic : PublicTopic} (hsound : Sound s) (h : Tracks desired s.protocol)
    (hk : s.started = true ∧ s.sessionOpen = true ∧ s.channel = true → Taken env s) :
    Tracks (wants desired (.unsubscribe topic)) (removeTopic env topic s).protocol := by
  cases hn : publicTopicName topic with
  | error error =>
    have hwants : wants desired (.unsubscribe topic) = desired := by
      funext other
      simp [wants, hn]
    rw [hwants]
    simp only [removeTopic, hn]
    exact h
  | ok name =>
    have hwants : wants desired (.unsubscribe topic) = fun other => other ≠ name ∧ desired other := by
      funext other
      simp [wants, hn, eq_comm]
    rw [hwants]
    simp only [removeTopic, hn]
    split_ifs with hc hopen
    · obtain ⟨ledger, hsent⟩ := sendSubscription_taken false hsound.named hc hopen.2.2 (hk hopen)
      rw [hsent]
      intro other
      change other ≠ name ∧ desired other ↔ other ∈ s.protocol.topics.map TopicRuntime.name ∧
        ¬Leaving other { s.protocol with pending := s.protocol.pending ++ [⟨s.ledger.nextRequestId, false, name⟩] }
      rw [leaving_append, h other]
      simp only [List.mem_singleton, exists_eq_left, true_and]
      constructor
      · rintro ⟨hne, hin, hstays⟩
        exact ⟨hin, fun hl => hl.elim hstays (fun he => hne he.symm)⟩
      · rintro ⟨hin, hstays⟩
        exact ⟨fun he => hstays (.inr he.symm), hin, fun hl => hstays (.inl hl)⟩
    · intro other
      change other ≠ name ∧ desired other ↔ other ∈ (erase name s.protocol.topics).map TopicRuntime.name ∧ ¬Leaving other s.protocol
      rw [names_erase, h other]
      simp [and_comm, and_left_comm]
    · intro other
      change other ≠ name ∧ desired other ↔ _
      rw [h other]
      refine ⟨fun hd => hd.2, fun hd => ⟨?_, hd⟩⟩
      rintro rfl
      exact hc (contains_iff.mpr hd.1)

end

/-- No topic is subscribed while it is about to leave, an unsubscribe request is sent, and the connection outlives it. -/
def Honours (decode : FrameDecoder) (s : PublicClient) (input : Input × Env) : Prop :=
  (∀ topic name, input.1 = .subscribe topic → publicTopicName topic = .ok name → ¬Leaving name s.protocol) ∧
  (∀ topic, input.1 = .unsubscribe topic → s.started = true ∧ s.sessionOpen = true ∧ s.channel = true → Taken input.2 s) ∧
  ((∃ name, Leaving name s.protocol) → Keeps decode s input)

section

variable (options : ClientOptions) (decode : FrameDecoder)

theorem step_tracks (hsound : Sound s) (hn : Numbered s) (h : Tracks desired s.protocol) {input : Input × Env}
    (hq : Honours decode s input) (hc : input.1 ≠ .stop ∧ ∀ topics, input.1 ≠ .start topics)
    (hf : (step options decode s input).ledger.faulted = false) :
    Tracks (wants desired input.1) (step options decode s input).protocol := by
  obtain ⟨input, env⟩ := input
  obtain ⟨hleave, htaken, hkeeps⟩ := hq
  have hmove := step_move options decode s (input, env)
  have hhandle : step options decode s (input, env) = handle options decode env input s := by
    unfold step guarded at hf ⊢
    split_ifs at hf ⊢ with hs hh
    · rw [hs] at hf
      cases hf
    · rfl
  by_cases hcall : input.isCall = true
  · rw [hhandle]
    cases input with
    | subscribe topic => exact addTopic_tracks hsound h (fun name => hleave topic name rfl) hkeeps
    | unsubscribe topic => exact removeTopic_tracks hsound h (htaken topic rfl)
    | start topics => exact absurd rfl (hc.2 topics)
    | stop => exact absurd rfl hc.1
    | _ => cases hcall
  · rw [Bool.not_eq_true] at hcall
    have hwants : wants desired input = desired := by
      funext name
      cases input <;> first | rfl | cases hcall
    rw [hwants]
    by_cases hany : ∃ name, Leaving name s.protocol
    · rw [hhandle]
      exact h.kept options hn hcall (hkeeps hany)
    · have hfollows : Follows (s.protocol.topics.map TopicRuntime.name) s := by
        refine ⟨rfl, fun request hm => ?_⟩
        by_contra hs
        exact hany ⟨request.topicName, request, hm, by simpa using hs, rfl⟩
      have hafter := hfollows.move hcall hmove
      refine h.congr hafter.names (fun name => iff_of_false ?_ (fun hl => hany ⟨name, hl⟩))
      rintro ⟨request, hm, hs, -⟩
      rw [hafter.pending request hm] at hs
      cases hs

theorem run_faulted (h : s.ledger.faulted = true) (inputs : List (Input × Env)) : Runs.run (step options decode) s inputs = s := by
  induction inputs with
  | nil => rfl
  | cons input inputs ih => rw [Runs.run_cons, step_faulted options decode input h, ih]

theorem run_tracks {inputs : List (Input × Env)} (hsound : Sound s) (hn : Numbered s) (h : Tracks desired s.protocol)
    (hq : Runs.Along (step options decode) (Honours decode) s inputs)
    (hc : ∀ input ∈ inputs, input.1 ≠ .stop ∧ ∀ topics, input.1 ≠ .start topics)
    (hf : (Runs.run (step options decode) s inputs).ledger.faulted = false) :
    Tracks (inputs.foldl (fun desired input => wants desired input.1) desired) (Runs.run (step options decode) s inputs).protocol := by
  induction inputs generalizing s desired with
  | nil => exact h
  | cons input inputs ih =>
    simp only [List.mem_cons, forall_eq_or_imp] at hc
    have halive : (step options decode s input).ledger.faulted = false := by
      by_contra hdead
      rw [Runs.run_cons, run_faulted options decode (by simpa using hdead)] at hf
      exact hdead hf
    exact ih (step_sound options decode hsound input) (step_numbered options decode hn input)
      (step_tracks options decode hsound hn h hq.1 hc.1 halive) hq.2 hc.2 hf

theorem topics_follow_calls (backoff : Net.ReconnectBackoff) (topics : List PublicTopic) (env : Env) (later : List (Input × Env))
    (hstart : (step options decode (initial options backoff) (.start topics, env)).started = true)
    (hcalls : ∀ input ∈ later, input.1 ≠ .stop ∧ ∀ topics, input.1 ≠ .start topics)
    (h : Runs.Along (step options decode) (Honours decode) (step options decode (initial options backoff) (.start topics, env)) later)
    (before : List (Input × Env)) (hb : before <+: later) (t : PublicClient)
    (ht : t = after options decode backoff ((.start topics, env) :: before)) (hf : t.ledger.faulted = false)
    (hp : t.protocol.pending = []) (name : Bytes) :
    name ∈ t.protocol.topics.map TopicRuntime.name ↔ asked topics before name := by
  subst ht
  have hinitial : Sound (initial options backoff) := Sound.initial options backoff
  obtain ⟨hfollows, he⟩ := started_names options decode (s := initial options backoff) rfl hstart
  have htracks : Tracks (fun name => ∃ topic ∈ topics, publicTopicName topic = .ok name)
      (step options decode (initial options backoff) (.start topics, env)).protocol := by
    intro name
    rw [hfollows.names, names_enrol he]
    have hstays : ¬Leaving name (step options decode (initial options backoff) (.start topics, env)).protocol := by
      rintro ⟨request, hm, hs, -⟩
      rw [hfollows.pending request hm] at hs
      cases hs
    simp only [hstays, not_false_eq_true, and_true]
    simp [initial]
  obtain ⟨rest, rfl⟩ := hb
  refine Tracks.of_settled ?_ hp name
  exact run_tracks options decode (step_sound options decode hinitial _)
    (step_numbered options decode ⟨fun _ hm => by simp [initial] at hm, by simp [initial]⟩ _) htracks
    ((Runs.along_append _ _ _ _ _).mp h).1 (fun input hm => hcalls input (List.mem_append_left _ hm)) hf

end

/-- The connection is lost before an unsubscribe request is answered. -/
def unsubscribeLost : List (Input × Env) :=
  [(.opened 1 none, {}), (.received 1 (.ok [0, 1]), {}), (.unsubscribe orderbook, {}), (.heartbeatExpired 1, {})]

/-- A topic is subscribed again before its unsubscribe request is answered. -/
def resubscribed : List (Input × Env) :=
  [(.opened 1 none, {}), (.received 1 (.ok [0, 1]), {}), (.unsubscribe orderbook, {}), (.subscribe orderbook, {}),
    (.received 1 (.ok [0, 2]), {})]

theorem orderbook_name : publicTopicName orderbook = .ok (ascii "predictOrderbook/42") := by decide

theorem topics_differ_from_calls :
    ((shortRun 8 ((.start [orderbook], {}) :: unsubscribeLost)).protocol.pending = [] ∧
      (shortRun 8 ((.start [orderbook], {}) :: unsubscribeLost)).protocol.topics.map TopicRuntime.name =
        [ascii "predictOrderbook/42"] ∧
      ¬asked [orderbook] unsubscribeLost (ascii "predictOrderbook/42")) ∧
    (shortRun 8 ((.start [orderbook], {}) :: resubscribed)).protocol.pending = [] ∧
      (shortRun 8 ((.start [orderbook], {}) :: resubscribed)).protocol.topics = [] ∧
      asked [orderbook] resubscribed (ascii "predictOrderbook/42") := by
  refine ⟨⟨by decide, by decide, ?_⟩, by decide, by decide, ?_⟩
  · simp [asked, wants, unsubscribeLost, orderbook_name]
  · simp [asked, wants, resubscribed, orderbook_name]

theorem honours_of_settled {decode : FrameDecoder} {input : Input × Env} (hc : input.1.isCall = false)
    (hp : ∀ request ∈ s.protocol.pending, request.subscribe = true) : Honours decode s input := by
  refine ⟨fun topic name hi => ?_, fun topic hi => ?_, ?_⟩
  · rw [hi] at hc
    cases hc
  · rw [hi] at hc
    cases hc
  · rintro ⟨name, request, hm, hs, -⟩
    rw [hp request hm] at hs
    cases hs

def unsubscribed : List (Input × Env) :=
  [(.opened 1 none, {}), (.received 1 (.ok [0, 1]), {}), (.unsubscribe orderbook, {}), (.received 1 (.ok [0, 2]), {})]

theorem unsubscribed_topic_gone :
    (shortRun 8 ((.start [orderbook], {}) :: unsubscribed)).protocol.pending = [] ∧
    (ascii "predictOrderbook/42" ∈ (shortRun 8 ((.start [orderbook], {}) :: unsubscribed)).protocol.topics.map TopicRuntime.name ↔
      asked [orderbook] unsubscribed (ascii "predictOrderbook/42")) := by
  have hpending : (shortRun 8 ((.start [orderbook], {}) :: unsubscribed)).protocol.pending = [] := by decide
  have hhonours : Runs.Along (step { maxPendingEvents := 8 } shortDecoder) (Honours shortDecoder)
      (step { maxPendingEvents := 8 } shortDecoder (initial { maxPendingEvents := 8 } (.ofPolicy {} 1)) (.start [orderbook], {}))
      unsubscribed := by
    refine ⟨honours_of_settled rfl (by decide), honours_of_settled rfl (by decide), ?_, ?_, trivial⟩
    · refine ⟨fun topic name hi => (nomatch hi), fun topic _ _ => ⟨by decide, fun _ => rfl⟩, ?_⟩
      exact fun _ => ⟨by decide, fun _ => rfl⟩
    · refine ⟨fun topic name hi => (nomatch hi), fun topic hi => (nomatch hi), fun _ _ => ⟨rfl, [0, 2], .subscription ⟨2, true, none⟩, rfl, rfl, ?_⟩⟩
      exact ⟨⟨2, false, ascii "predictOrderbook/42"⟩, by decide, rfl, fun hs => by cases hs⟩
  exact ⟨hpending, topics_follow_calls { maxPendingEvents := 8 } shortDecoder (.ofPolicy {} 1) [orderbook] {} unsubscribed
    (by decide) (by simp [unsubscribed]) hhonours unsubscribed List.prefix_rfl _ rfl (by decide) hpending _⟩

end PredictFun.Wss.Public
