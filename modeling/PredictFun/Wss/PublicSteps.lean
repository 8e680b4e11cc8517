import PredictFun.Wss.Linked

namespace PredictFun.Wss

open Base Codec

namespace Public

open Client

variable {decode : FrameDecoder} (env : Env) {s t : PublicClient}

def announce (s : PublicClient) : PublicClient :=
  setState (freshness s.protocol.topics).1 (ascii (freshness s.protocol.topics).2) false s

@[simp] theorem announce_started (s : PublicClient) : (announce s).started = s.started := setState_started ..

@[simp] theorem announce_sessionOpen (s : PublicClient) : (announce s).sessionOpen = s.sessionOpen := setState_sessionOpen ..

@[simp] theorem announce_reconnectPending (s : PublicClient) : (announce s).reconnectPending = s.reconnectPending :=
  setState_reconnectPending ..

@[simp] theorem announce_channel (s : PublicClient) : (announce s).channel = s.channel := setState_channel ..

@[simp] theorem announce_generation (s : PublicClient) : (announce s).generation = s.generation := setState_generation ..

@[simp] theorem announce_protocol (s : PublicClient) : (announce s).protocol = s.protocol := setState_protocol ..

@[simp] theorem announce_ledger (s : PublicClient) : (announce s).ledger = s.ledger := setState_ledger ..

@[simp] theorem announce_state (s : PublicClient) : (announce s).state = (freshness s.protocol.topics).1 := setState_state ..

theorem updateFreshnessState_eq (hs : s.started = true) :
    ∃ ledger, Owed false s ledger ∧ updateFreshnessState s = { announce s with ledger := ledger } := by
  rw [updateFreshnessState, if_neg (by simp [hs])]
  dsimp only
  split_ifs with h
  · refine ⟨{ s.ledger with backoff := s.ledger.backoff.markStable }, fun _ ho => .inl ho, ?_⟩
    exact setState_update ..
  · refine ⟨s.ledger, Owed.refl false s, ?_⟩
    unfold announce setState
    split_ifs <;> rfl

inductive Digest (s : PublicClient) : PublicWsMessage → PublicClient → Prop
  | passive {message : PublicWsMessage} {t : PublicClient} (h : Passive protocol false s t) : Digest s message t
  | rejected {message : PublicWsMessage} {request : PendingRequest} {t : PublicClient} (hm : request ∈ s.protocol.pending)
      (h : Passive protocol false (forget request s) t) : Digest s message t
  | acknowledged {response : SubscriptionResponse} {request : PendingRequest} (hm : request ∈ s.protocol.pending)
      (hid : request.requestId = response.requestId.toNat) (hok : response.success = true) (hs : request.subscribe = true) (ledger : Ledger) (hl : Owed false s ledger) :
      Digest s (.subscription response)
        { announce (withTopics (modify request.topicName acknowledge) (forget request s)) with ledger := ledger }
  | erased {response : SubscriptionResponse} {request : PendingRequest} (hm : request ∈ s.protocol.pending)
      (hid : request.requestId = response.requestId.toNat) (hok : response.success = true) (hs : request.subscribe = false) (ledger : Ledger) (hl : Owed false s ledger) :
      Digest s (.subscription response)
        { announce (withTopics (erase request.topicName) (forget request s)) with ledger := ledger }
  | unknown {topic reason : Bytes} (ledger : Ledger) (hl : Owed false s ledger) :
      Digest s (.unknown topic) { setState .degraded reason true s with ledger := ledger }
  | accepted {message : PublicWsMessage} {runtime : TopicRuntime} (hr : route message s.protocol.topics = some runtime)
      (ho : regressed message runtime = false) (ledger : Ledger) (hl : Owed false s ledger) {u : PublicClient}
      (hu : u = announce (withTopics (modify runtime.name (refresh message)) s)) (hf : u.queue.full = false) :
      Digest s message
        { u with queue := u.queue.push (.data ⟨runtime.topic, message, true⟩ u.generation), ledger := ledger }
  | refused {message : PublicWsMessage} {runtime : TopicRuntime} (hr : route message s.protocol.topics = some runtime)
      (ho : regressed message runtime = false) {u t : PublicClient}
      (hu : u = announce (withTopics (modify runtime.name (refresh message)) s)) (hf : u.queue.full = true) (ledger : Ledger)
      (hl : Owed false s ledger)
      (ht : Passive protocol false
        { u with queue := u.queue.refuse (.data ⟨runtime.topic, message, true⟩ u.generation), ledger := ledger } t)
      (hp : t.reconnectPending = true) : Digest s message t

variable {message : PublicWsMessage}

theorem Digest.of_ledger {ledger : Ledger} (ho : Owed false s ledger)
    (h : Digest { s with ledger := ledger } message t) : Digest s message t := by
  have hupdate : ∀ u : PublicClient, announce { u with ledger := ledger } = { announce u with ledger := ledger } :=
    fun u => setState_update ..
  have howed : ∀ ledger', Owed false { s with ledger := ledger } ledger' → Owed false s ledger' :=
    fun ledger' hl => Owed.trans (t := { s with ledger := ledger }) ho rfl hl
  cases h with
  | passive h => exact .passive ((Passive.of_ledger ho).trans h)
  | rejected hm h => exact Digest.rejected (s := s) hm (Passive.trans ⟨ledger, ho, .inl rfl⟩ h)
  | @acknowledged response request hm hid hok hs ledger' hl =>
    have he := hupdate (withTopics (modify request.topicName acknowledge) (forget request s))
    have h : Digest s (.subscription response) _ := Digest.acknowledged (s := s) hm hid hok hs ledger' (howed ledger' hl)
    exact (congrArg (fun u : PublicClient => { u with ledger := ledger' }) he) ▸ h
  | @erased response request hm hid hok hs ledger' hl =>
    have he := hupdate (withTopics (erase request.topicName) (forget request s))
    have h : Digest s (.subscription response) _ := Digest.erased (s := s) hm hid hok hs ledger' (howed ledger' hl)
    exact (congrArg (fun u : PublicClient => { u with ledger := ledger' }) he) ▸ h
  | unknown ledger' hl =>
    rw [setState_update]
    exact Digest.unknown (s := s) ledger' (howed ledger' hl)
  | @accepted _ runtime hr hreg ledger' hl _ hu hf =>
    obtain rfl := hu.trans (hupdate (withTopics (modify runtime.name (refresh message)) s))
    exact Digest.accepted (s := s) (u := announce (withTopics (modify runtime.name (refresh message)) s)) hr hreg ledger' (howed ledger' hl) rfl hf
  | @refused _ runtime hr hreg _ _ hu hf ledger' hl ht hp =>
    obtain rfl := hu.trans (hupdate (withTopics (modify runtime.name (refresh message)) s))
    exact Digest.refused (s := s) (u := announce (withTopics (modify runtime.name (refresh message)) s)) hr hreg rfl hf ledger'
      (howed ledger' hl) ht hp

theorem Digest.of_count {update : ClientStats → ClientStats} (h : Digest (s.count update) message t) :
    Digest s message t := by
  have hl : Owed false s (s.count update).ledger := Owed.of_eq rfl
  exact Digest.of_ledger hl h

theorem handleResponse_digest (hs : s.started = true) (response : SubscriptionResponse) :
    Digest s (.subscription response) (handleResponse env response s) := by
  unfold handleResponse
  split
  · exact .passive (scheduleReconnect_passive env _ s)
  · next request hf =>
    have hm : request ∈ s.protocol.pending := List.mem_of_find?_eq_some hf
    have hid : request.requestId = response.requestId.toNat := by simpa using List.find?_some hf
    dsimp only
    split_ifs with hsuccess hsubscribe hcontains
    · exact .rejected hm (scheduleReconnect_passive env _ (forget request s))
    · obtain ⟨ledger, hl, he⟩ := updateFreshnessState_eq (s := withTopics (modify request.topicName acknowledge) (forget request s)) hs
      have h : Digest s (.subscription response) _ := .acknowledged hm hid (by simpa using hsuccess) hsubscribe ledger hl
      rwa [← he] at h
    · exact .rejected hm (scheduleReconnect_passive env _ (forget request s))
    · obtain ⟨ledger, hl, he⟩ := updateFreshnessState_eq (s := withTopics (erase request.topicName) (forget request s)) hs
      have h : Digest s (.subscription response) _ := .erased hm hid (by simpa using hsuccess) (by simpa using hsubscribe) ledger hl
      rwa [← he] at h

theorem handleData_digest (hs : s.started = true) (message : PublicWsMessage) :
    Digest s message (handleData env message s) := by
  unfold handleData
  split_ifs with hmapped
  · exact .passive (scheduleReconnect_passive env _ s)
  · split
    · exact .passive (scheduleReconnect_passive env _ s)
    · next runtime hr =>
      obtain ⟨ledger, hl, he⟩ := updateFreshnessState_eq (s := withTopics (modify runtime.name (refresh message)) s) hs
      split_ifs with ho
      · exact .passive ((count_passive _ s).trans (scheduleReconnect_passive env _ _))
      · rw [he]
        dsimp only
        split_ifs with hf
        · exact .refused hr (by simpa using ho) rfl hf ledger hl
            ((count_passive _ _).trans (scheduleReconnect_passive env _ _))
            (scheduleReconnect_pending env _ (by simpa [count, withTopics] using hs))
        · exact .accepted hr (by simpa using ho) ledger hl rfl (by simpa using hf)

theorem handleMessage_digest (hs : s.started = true) (message : PublicWsMessage) :
    Digest s message (handleMessage env message s) := by
  cases message with
  | heartbeat timestampMs => exact .passive (echoHeartbeat_passive env timestampMs s)
  | subscription response => exact handleResponse_digest env hs response
  | unknown topic => exact .unknown s.ledger (Owed.refl false s)
  | _ => exact handleData_digest env hs _

theorem received_cases (generation : ℕ) (result : Except Bytes Bytes) (s : PublicClient) :
    Passive protocol false s (received decode env generation result s) ∨
    s.started = true ∧ generation = s.generation ∧ ∃ text message t,
      result = .ok text ∧ decode text (resolver s.protocol.topics) = .ok message ∧
      Digest s message t ∧ Passive protocol true t (received decode env generation result s) := by
  unfold received
  split_ifs with h
  · exact .inl (Passive.refl false s)
  · rw [not_or, not_not, Bool.not_eq_false] at h
    cases result with
    | error reason => exact .inl (scheduleReconnect_passive env reason s)
    | ok text =>
      dsimp only
      split
      · exact .inl ((count_passive _ s).trans ((count_passive _ _).trans (scheduleReconnect_passive env _ _)))
      · next message hd =>
        exact .inr ⟨h.1, h.2, text, message, _, rfl, hd, (handleMessage_digest env (s := s.count _) h.1 message).of_count,
          readNext_passive env generation _⟩

theorem sendSubscription_cases (name : Bytes) (isSubscribe : Bool) (s : PublicClient) :
    ∃ requests, (∀ request ∈ requests, request.subscribe = isSubscribe ∧ request.topicName = name) ∧
      Passive protocol false (withPending (· ++ requests) s) (sendSubscription env name isSubscribe s) := by
  have hnil : withPending (· ++ []) s = s := by
    unfold withPending
    simp only [List.append_nil]
  unfold sendSubscription
  split
  · exact ⟨[], by simp, by rw [hnil]; exact Passive.refl false s⟩
  · next runtime hf =>
    dsimp only
    split
    · refine ⟨[], by simp, ?_⟩
      rw [hnil]
      exact (takeRequestId_passive s).trans (scheduleReconnect_passive env _ _)
    · next outgoing he =>
      refine ⟨[⟨s.ledger.nextRequestId, isSubscribe, name⟩], by simp, ?_⟩
      exact (takeRequestId_passive _).trans (write_passive env outgoing _)

theorem sendSubscription_dead {name : Bytes} {isSubscribe : Bool} (hp : s.reconnectPending = true) (hc : s.channel = false)
    (hf : (sendSubscription env name isSubscribe s).ledger.faulted = false) :
    ∃ ledger, Owed false s ledger ∧ sendSubscription env name isSubscribe s = { s with ledger := ledger } := by
  unfold sendSubscription at hf ⊢
  split at hf
  · exact ⟨s.ledger, Owed.refl false s, rfl⟩
  · dsimp only at hf ⊢
    split at hf
    · refine ⟨s.takeRequestId.ledger, fun _ ho => .inl ho, ?_⟩
      rw [scheduleReconnect, if_pos (.inr hp)]
      rfl
    · simp [hc, withPending, takeRequestId] at hf

theorem sendSubscription_faulted {name : Bytes} {isSubscribe : Bool}
    (h : (sendSubscription env name isSubscribe s).ledger.faulted = false) : s.ledger.faulted = false := by
  unfold sendSubscription at h
  split at h
  · exact h
  · dsimp only at h
    split at h
    · rwa [scheduleReconnect_faulted] at h
    · rw [write_faulted, Bool.or_eq_false_iff] at h
      exact h.1

theorem sendAll_faulted (names : List Bytes) (h : (sendAll env names s).ledger.faulted = false) : s.ledger.faulted = false := by
  induction names generalizing s with
  | nil => exact h
  | cons name names ih => exact sendSubscription_faulted env (ih h)

theorem sendAll_dead (names : List Bytes) (hp : s.reconnectPending = true) (hc : s.channel = false)
    (hf : (sendAll env names s).ledger.faulted = false) :
    ∃ ledger, Owed false s ledger ∧ sendAll env names s = { s with ledger := ledger } := by
  induction names generalizing s with
  | nil => exact ⟨s.ledger, Owed.refl false s, rfl⟩
  | cons name names ih =>
    obtain ⟨ledger, ho, he⟩ := sendSubscription_dead env hp hc (sendAll_faulted env names hf)
    obtain ⟨ledger', ho', he'⟩ := ih (s := sendSubscription env name true s) (by rw [he]; exact hp) (by rw [he]; exact hc) hf
    refine ⟨ledger', ?_, ?_⟩
    · rw [he] at ho'
      exact Owed.trans (t := { s with ledger := ledger }) ho rfl ho'
    · change sendAll env names (sendSubscription env name true s) = _
      rw [he', he]

theorem sendAll_cases {names : List Bytes} (hf : (sendAll env names s).ledger.faulted = false) :
    ∃ requests, (∀ request ∈ requests, request.subscribe = true) ∧
      Passive protocol false (withPending (· ++ requests) s) (sendAll env names s) := by
  induction names generalizing s with
  | nil =>
    refine ⟨[], by simp, ?_⟩
    unfold withPending
    simp only [List.append_nil]
    exact Passive.refl false s
  | cons name names ih =>
    obtain ⟨first, hfirst, hpassive⟩ := sendSubscription_cases env name true s
    obtain ⟨ledger, ho, he | ⟨hs, hp, reason, he⟩⟩ := hpassive
    · obtain ⟨rest, hrest, hlast⟩ := ih (s := sendSubscription env name true s) hf
      refine ⟨first ++ rest, ?_, ?_⟩
      · intro request hm
        rcases List.mem_append.mp hm with hm | hm
        · exact (hfirst request hm).1
        · exact hrest request hm
      · have hstart : Passive protocol false (withPending (· ++ (first ++ rest)) s)
            (withPending (· ++ rest) (sendSubscription env name true s)) := by
          rw [he]
          refine ⟨ledger, ho, .inl ?_⟩
          simp only [withPending, List.append_assoc]
        exact hstart.trans hlast
    · -- the connection is given up: nothing more is sent
      refine ⟨first, fun request hm => (hfirst request hm).1, ?_⟩
      have hdead := sendAll_dead env names (s := sendSubscription env name true s) (by rw [he]; simp)
        (by rw [he]; simp) hf
      obtain ⟨ledger', ho', he'⟩ := hdead
      have hgiven : Passive protocol false (withPending (· ++ first) s) (sendSubscription env name true s) :=
        ⟨ledger, ho, .inr ⟨hs, hp, reason, he⟩⟩
      refine hgiven.trans ⟨ledger', ho', .inl he'⟩

theorem opened_cases {generation : ℕ} {result : Option Bytes}
    (hf : (opened env generation result s).ledger.faulted = false) :
    Passive protocol false s (opened env generation result s) ∨
    s.started = true ∧ generation = s.generation ∧ result = none ∧ ∃ requests : List PendingRequest,
      (∀ request ∈ requests, request.subscribe = true) ∧
      (s.reconnectPending = true → s.channel = false → requests = []) ∧
      Passive protocol true (withPending (· ++ requests) (openSession s)) (opened env generation result s) := by
  unfold opened at hf ⊢
  split_ifs at hf ⊢ with h
  · exact .inl (Passive.refl false s)
  · rw [not_or, not_not, Bool.not_eq_false] at h
    cases result with
    | some reason => exact .inl (scheduleReconnect_passive env reason s)
    | none =>
      refine .inr ⟨h.1, h.2, rfl, ?_⟩
      dsimp only at hf ⊢
      have hread : Passive protocol true (openSession s) (readNext protocol env generation (armHeartbeat (openSession s))) :=
        (arm_passive _ _).mono.trans (readNext_passive env generation _)
      generalize readNext protocol env generation (armHeartbeat (openSession s)) = u at hf hread ⊢
      by_cases hdead : u.reconnectPending = true ∧ u.channel = false
      · obtain ⟨ledger, ho, he⟩ := sendAll_dead env _ hdead.1 hdead.2 hf
        have hsent : Passive protocol false u (sendAll env (u.protocol.topics.map TopicRuntime.name) u) :=
          ⟨ledger, ho, .inl he⟩
        refine ⟨[], by simp, fun _ _ => rfl, ?_⟩
        unfold withPending
        simp only [List.append_nil]
        exact hread.trans (hsent.mono.trans (arm_passive _ _).mono)
      · obtain ⟨ledger, ho, rfl | ⟨-, -, reason, rfl⟩⟩ := hread
        · obtain ⟨requests, hsub, hsent⟩ := sendAll_cases env (s := { openSession s with ledger := ledger }) hf
          refine ⟨requests, hsub, fun hp hc => absurd ⟨by simpa using hp, by simpa using hc⟩ hdead, ?_⟩
          have hstart : Passive protocol true (withPending (· ++ requests) (openSession s))
              (withPending (· ++ requests) { openSession s with ledger := ledger }) := ⟨ledger, ho, .inl rfl⟩
          exact hstart.trans (hsent.mono.trans (arm_passive _ _).mono)
        · simp at hdead

theorem ackExpired_passive (generation : ℕ) (s : PublicClient) : Passive protocol false s (ackExpired env generation s) := by
  unfold ackExpired
  split_ifs
  · exact scheduleReconnect_passive env _ s
  · exact Passive.refl false s

variable (topic : PublicTopic)

theorem addTopic_cases (s : PublicClient) :
    (∃ error, publicTopicName topic = .error error ∧ addTopic env topic s = setState .degraded error.message true s) ∨
    (∃ name, publicTopicName topic = .ok name ∧ contains name s.protocol.topics = true ∧ addTopic env topic s = s) ∨
    ∃ name, publicTopicName topic = .ok name ∧ contains name s.protocol.topics = false ∧
      ∃ requests : List PendingRequest, (∀ request ∈ requests, request.subscribe = true ∧ request.topicName = name) ∧
        (s.started = true ∧ s.sessionOpen = true ∧ s.channel = true ∨ requests = []) ∧
        Passive protocol false (withPending (· ++ requests) (withTopics (emplace name topic) s)) (addTopic env topic s) := by
  unfold addTopic
  split
  · next error he => exact .inl ⟨error, he, rfl⟩
  · next name hname =>
    split_ifs with hcontains
    · exact .inr (.inl ⟨name, hname, hcontains, rfl⟩)
    · refine .inr (.inr ⟨name, hname, by simpa using hcontains, ?_⟩)
      dsimp only
      split_ifs with hopen
      · obtain ⟨requests, hsub, hsent⟩ := sendSubscription_cases env name true (withTopics (emplace name topic) s)
        exact ⟨requests, hsub, .inl hopen, hsent.trans (arm_passive _ _)⟩
      · refine ⟨[], by simp, .inr rfl, ?_⟩
        unfold withPending
        simp only [List.append_nil]
        exact Passive.refl false _

theorem removeTopic_cases (s : PublicClient) :
    (∀ name, publicTopicName topic = .ok name → contains name s.protocol.topics = false) ∧ removeTopic env topic s = s ∨
    ∃ name, publicTopicName topic = .ok name ∧ contains name s.protocol.topics = true ∧
      (¬(s.started = true ∧ s.sessionOpen = true ∧ s.channel = true) ∧ removeTopic env topic s = withTopics (erase name) s ∨
        s.started = true ∧ s.sessionOpen = true ∧ s.channel = true ∧ ∃ requests : List PendingRequest,
          (∀ request ∈ requests, request.subscribe = false ∧ request.topicName = name) ∧
          Passive protocol false (withPending (· ++ requests) s) (removeTopic env topic s)) := by
  unfold removeTopic
  split
  · next error he => exact .inl ⟨fun name hn => by simp [he] at hn, rfl⟩
  · next name hname =>
    split_ifs with hcontains hopen
    · exact .inr ⟨name, hname, by simpa using hcontains, .inr ⟨hopen.1, hopen.2.1, hopen.2.2, by
        obtain ⟨requests, hsub, hsent⟩ := sendSubscription_cases env name false s
        exact ⟨requests, hsub, hsent.trans (arm_passive _ _)⟩⟩⟩
    · exact .inr ⟨name, hname, by simpa using hcontains, .inl ⟨hopen, rfl⟩⟩
    · refine .inl ⟨fun other hn => ?_, rfl⟩
      obtain rfl : name = other := Except.ok.inj (hname.symm.trans hn)
      simpa using hcontains

variable (options : ClientOptions)

theorem begin_cases (topics : List PublicTopic) (s : PublicClient) :
    (s.started = true ∧ begin options env topics s = s) ∨
    s.started = false ∧
      ((∃ reason admitted, (admitted = s.protocol.topics ∨ admitted = (enrol topics [] s.protocol.topics).1) ∧
          begin options env topics s = hardStop protocol reason (withTopics (fun _ => admitted) s)) ∨
        (enrol topics [] s.protocol.topics).2 = none ∧
        begin options env topics s = launch protocol env (withTopics (fun _ => (enrol topics [] s.protocol.topics).1) s)) := by
  unfold begin
  split_ifs with h1 h2 h3 h4 h5
  · exact .inl ⟨h1, rfl⟩
  all_goals rw [Bool.not_eq_true] at h1
  · exact .inr ⟨h1, .inl ⟨_, _, .inl rfl, rfl⟩⟩
  · exact .inr ⟨h1, .inl ⟨_, _, .inl rfl, rfl⟩⟩
  · exact .inr ⟨h1, .inl ⟨_, _, .inl rfl, rfl⟩⟩
  · exact .inr ⟨h1, .inl ⟨_, _, .inl rfl, rfl⟩⟩
  · refine .inr ⟨h1, ?_⟩
    dsimp only
    split
    · exact .inl ⟨_, _, .inr rfl, rfl⟩
    · next hn => exact .inr ⟨hn, rfl⟩

inductive Move (decode : FrameDecoder) (s : PublicClient) : Input → PublicClient → Prop
  | passive {input : Input} {t : PublicClient} (h : Passive protocol false s t) : Move decode s input t
  | pop : Move decode s .pop { s with queue := s.queue.pop }
  | stop {reason : Bytes} : Move decode s .stop (hardStop protocol reason s)
  | refused {topics : List PublicTopic} {reason : Bytes} {enrolled : List TopicRuntime} (hs : s.started = false)
      (he : enrolled = s.protocol.topics ∨ enrolled = (enrol topics [] s.protocol.topics).1) :
      Move decode s (.start topics) (hardStop protocol reason (withTopics (fun _ => enrolled) s))
  | start {topics : List PublicTopic} {t : PublicClient} (hs : s.started = false)
      (he : (enrol topics [] s.protocol.topics).2 = none)
      (h : Renewed protocol { withTopics (fun _ => (enrol topics [] s.protocol.topics).1) s with started := true } t) :
      Move decode s (.start topics) t
  | reconnect {t : PublicClient} (hs : s.started = true) (h : Renewed protocol s t) : Move decode s .reconnectExpired t
  -- a reconnect timer that was cancelled too late
  | idle (ledger : Ledger) (hs : s.started = false) (hl : Owed false s ledger) :
      Move decode s .reconnectExpired { s with reconnectPending := false, ledger := ledger }
  | opened {generation : ℕ} {requests : List PendingRequest} {t : PublicClient} (hs : s.started = true)
      (hg : generation = s.generation) (hf : .opening generation ∈ s.ledger.inFlight)
      (hr : ∀ request ∈ requests, request.subscribe = true)
      (hd : s.reconnectPending = true → s.channel = false → requests = [])
      (h : Passive protocol true (withPending (· ++ requests) (openSession s)) t) : Move decode s (.opened generation none) t
  | frame {generation : ℕ} {text : Bytes} {message : PublicWsMessage} {u t : PublicClient} (hs : s.started = true)
      (hg : generation = s.generation) (hf : .reading generation ∈ s.ledger.inFlight)
      (hm : decode text (resolver s.protocol.topics) = .ok message) (hd : Digest s message u)
      (h : Passive protocol true u t) : Move decode s (.received generation (.ok text)) t
  | degraded {topic : PublicTopic} {error : Error} (hn : publicTopicName topic = .error error) :
      Move decode s (.subscribe topic) (setState .degraded error.message true s)
  | added {topic : PublicTopic} {name : Bytes} {requests : List PendingRequest} {t : PublicClient}
      (hn : publicTopicName topic = .ok name) (hc : contains name s.protocol.topics = false)
      (hr : ∀ request ∈ requests, request.subscribe = true ∧ request.topicName = name)
      (ho : s.started = true ∧ s.sessionOpen = true ∧ s.channel = true ∨ requests = [])
      (h : Passive protocol false (withPending (· ++ requests) (withTopics (emplace name topic) s)) t) :
      Move decode s (.subscribe topic) t
  | removed {topic : PublicTopic} {name : Bytes} (hn : publicTopicName topic = .ok name)
      (hc : contains name s.protocol.topics = true) (ho : ¬(s.started = true ∧ s.sessionOpen = true ∧ s.channel = true)) :
      Move decode s (.unsubscribe topic) (withTopics (erase name) s)
  | withdrawn {topic : PublicTopic} {name : Bytes} {requests : List PendingRequest} {t : PublicClient}
      (hn : publicTopicName topic = .ok name) (hc : contains name s.protocol.topics = true)
      (ho : s.started = true ∧ s.sessionOpen = true ∧ s.channel = true)
      (hr : ∀ request ∈ requests, request.subscribe = false ∧ request.topicName = name)
      (h : Passive protocol false (withPending (· ++ requests) s) t) : Move decode s (.unsubscribe topic) t

theorem start_move (topics : List PublicTopic) (s : PublicClient) :
    Move decode s (.start topics) (begin options env topics s) := by
  rcases begin_cases env options topics s with ⟨-, he⟩ | ⟨hs, ⟨reason, enrolled, he, ht⟩ | ⟨he, ht⟩⟩
  · rw [he]
    exact .passive (Passive.refl false s)
  · rw [ht]
    exact .refused hs he
  · rw [ht]
    exact .start hs he (launch_renewed env _)

theorem subscribe_move (s : PublicClient) : Move decode s (.subscribe topic) (addTopic env topic s) := by
  rcases addTopic_cases env topic s with ⟨error, hn, he⟩ | ⟨-, -, -, he⟩ | ⟨name, hn, hc, requests, hr, ho, h⟩
  · rw [he]
    exact .degraded hn
  · rw [he]
    exact .passive (Passive.refl false s)
  · exact .added hn hc hr ho h

theorem unsubscribe_move (s : PublicClient) :
    Move decode s (.unsubscribe topic) (removeTopic env topic s) := by
  rcases removeTopic_cases env topic s with ⟨-, he⟩ | ⟨name, hn, hc, ⟨ho, he⟩ | ⟨hs, hopen, hchannel, requests, hr, h⟩⟩
  · rw [he]
    exact .passive (Passive.refl false s)
  · rw [he]
    exact .removed hn hc ho
  · exact .withdrawn hn hc ⟨hs, hopen, hchannel⟩ hr h

theorem opened_move {generation : ℕ} {result : Option Bytes}
    (hf : (completing (.opening generation) (opened env generation result) s).ledger.faulted = false) :
    Move decode s (.opened generation result) (completing (.opening generation) (opened env generation result) s) := by
  rcases completing_cases (.opening generation) (opened env generation result) s with he | ⟨hm, ledger, ho, he⟩
  · rw [he]
    exact .passive (Passive.refl false s)
  · rw [he] at hf ⊢
    rcases opened_cases env hf with h | ⟨hs, hg, rfl, requests, hr, hd, h⟩
    · exact .passive ((Passive.of_ledger ho).trans h)
    · rw [openSession_update] at h
      have hstart : Passive protocol true (withPending (· ++ requests) (openSession s))
          (withPending (· ++ requests) { openSession s with ledger := ledger }) := by
        refine ⟨ledger, fun operation ho' => ?_, .inl rfl⟩
        rcases ho operation ho' with ho' | ho' | ⟨ho', -⟩
        · exact .inl (by simpa [withPending] using ho')
        · exact .inr (.inl (by simpa [withPending] using ho'))
        · cases ho'
      exact .opened hs hg hm hr hd (hstart.trans h)

theorem received_move (generation : ℕ) (result : Except Bytes Bytes) (s : PublicClient) :
    Move decode s (.received generation result) (completing (.reading generation) (received decode env generation result) s) := by
  rcases completing_cases (.reading generation) (received decode env generation result) s with he | ⟨hm, ledger, ho, he⟩
  · rw [he]
    exact .passive (Passive.refl false s)
  · rw [he]
    rcases received_cases env generation result { s with ledger := ledger } with h | ⟨hs, hg, text, message, u, rfl, hd, hu, h⟩
    · exact .passive ((Passive.of_ledger ho).trans h)
    · exact .frame hs hg hm hd (hu.of_ledger ho) h

theorem reconnect_move (s : PublicClient) :
    Move decode s .reconnectExpired (expiring .reconnect (Client.reconnectExpired protocol env) s) := by
  rcases reconnecting_cases env (P := protocol) s with he | ⟨hs, h⟩ | ⟨hs, ledger, hl, he⟩
  · rw [he]
    exact .passive (Passive.refl false s)
  · exact .reconnect hs h
  · rw [he]
    exact .idle ledger hs hl

theorem step_move (decode : FrameDecoder) (s : PublicClient) (input : Input × Env) :
    Move decode s input.1 (step options decode s input) := by
  obtain ⟨input, env⟩ := input
  unfold step
  dsimp only
  rcases guarded_cases (P := protocol) (handle options decode env input) s with h | ⟨-, hf, he⟩
  · exact .passive h
  · rw [he]
    cases input with
    | start topics => exact start_move env options topics s
    | stop => exact .stop
    | subscribe topic => exact subscribe_move env topic s
    | unsubscribe topic => exact unsubscribe_move env topic s
    | opened generation result => exact opened_move env hf
    | received generation result => exact received_move env generation result s
    | wrote generation result => exact .passive (completing_passive (wrote_passive env generation result) s)
    | reconnectExpired => exact reconnect_move env s
    | heartbeatExpired generation => exact .passive (expiring_passive (heartbeatExpired_passive env generation) s)
    | ackExpired generation => exact .passive (expiring_passive (ackExpired_passive env generation) s)
    | pop => exact .pop

theorem step_faulted (decode : FrameDecoder) (input : Input × Env) (h : s.ledger.faulted = true) :
    step options decode s input = s := if_pos h

theorem step_eq (decode : FrameDecoder) (input : Input) (env : Env) (h : s.ledger.faulted = false)
    (hf : (handle options decode env input s).ledger.faulted = false) :
    step options decode s (input, env) = handle options decode env input s := by
  unfold step guarded
  rw [if_neg (by simp [h]), if_neg (by simp [hf])]

theorem Digest.generation (h : Digest s message t) : t.generation = s.generation := by
  cases h with
  | passive hp => exact hp.generation
  | rejected hm hp => exact hp.generation
  | acknowledged hm hid hok hs ledger hl => exact announce_generation _
  | erased hm hid hok hs ledger hl => exact announce_generation _
  | unknown ledger hl => exact setState_generation ..
  | accepted hr ho ledger hl hu hf =>
    subst hu
    exact announce_generation _
  | refused hr ho hu hf ledger hl ht hp =>
    subst hu
    exact ht.generation.trans (announce_generation _)

theorem Digest.queue (h : Digest s message t) : EventQueue.Reaches OverflowMarker s.queue t.queue := by
  have hannounce : ∀ u : PublicClient, EventQueue.Reaches OverflowMarker u.queue (announce u).queue := fun u => setState_reaches _ _ _ u
  cases h with
  | passive hp => exact hp.queue
  | rejected hm hp => exact hp.queue
  | acknowledged hm hid hok hs ledger hl => exact hannounce (withTopics _ (forget _ s))
  | erased hm hid hok hs ledger hl => exact hannounce (withTopics _ (forget _ s))
  | unknown ledger hl => exact setState_reaches ..
  | accepted hr ho ledger hl hu hf =>
    subst hu
    exact (hannounce (withTopics _ s)).trans (EventQueue.Operated.push _ hf).reaches
  | refused hr ho hu hf ledger hl ht hp =>
    subst hu
    exact ((hannounce (withTopics _ s)).trans (EventQueue.Operated.refuse _).reaches).trans ht.queue

theorem Move.queue {input : Input} (h : Move decode s input t) : EventQueue.Reaches OverflowMarker s.queue t.queue := by
  cases h with
  | passive hp => exact hp.queue
  | pop => exact EventQueue.Operated.pop.reaches
  | stop => exact hardStop_reaches _ s
  | refused hs he => exact hardStop_reaches _ (withTopics _ s)
  | start hs he hr => exact hr.queue
  | reconnect hs hr => exact hr.queue
  | idle ledger hs hl => exact .refl _
  | opened hs hg hf hr hd hp => exact (openSession_reaches s).trans hp.queue
  | frame hs hg hf hm hd hp => exact hd.queue.trans hp.queue
  | degraded hn => exact setState_reaches ..
  | added hn hc hr ho hp => exact hp.queue
  | removed hn hc ho => exact .refl _
  | withdrawn hn hc ho hr hp => exact hp.queue

theorem run_queue (decode : FrameDecoder) (s : PublicClient) (inputs : List (Input × Env)) :
    EventQueue.Reaches OverflowMarker s.queue (Runs.run (step options decode) s inputs).queue := by
  induction inputs generalizing s with
  | nil => exact .refl _
  | cons input inputs ih => exact (step_move options decode s input).queue.trans (ih _)

end Public

end PredictFun.Wss
