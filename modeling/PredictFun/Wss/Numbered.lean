import PredictFun.Wss.PublicSound

namespace PredictFun.Wss

open Base Codec

namespace Client

variable {π δ : Type} (P : Protocol π) (env : Env) (s : Client π δ)

@[simp] theorem connect_nextRequestId : (connect P env s).ledger.nextRequestId = s.ledger.nextRequestId := by
  unfold connect
  split_ifs
  · rfl
  · simp
  · split <;> simp [owe]

@[simp] theorem wrote_nextRequestId (generation : ℕ) (result : Option Bytes) :
    (wrote P env generation result s).ledger.nextRequestId = s.ledger.nextRequestId := by
  unfold wrote
  split_ifs
  · rfl
  · cases result <;> simp

@[simp] theorem heartbeatExpired_nextRequestId (generation : ℕ) :
    (heartbeatExpired P env generation s).ledger.nextRequestId = s.ledger.nextRequestId := by
  unfold heartbeatExpired
  split_ifs <;> simp

@[simp] theorem echoHeartbeat_nextRequestId (timestampMs : ℤ) :
    (echoHeartbeat P env timestampMs s).ledger.nextRequestId = s.ledger.nextRequestId := by
  unfold echoHeartbeat
  dsimp only
  split <;> simp [armHeartbeat, arm]

theorem completing_nextRequestId {operation : Operation} {handler : Client π δ → Client π δ}
    (hh : ∀ s, (handler s).ledger.nextRequestId = s.ledger.nextRequestId) :
    (completing operation handler s).ledger.nextRequestId = s.ledger.nextRequestId := by
  unfold completing
  split_ifs
  · exact hh _
  · rfl

theorem expiring_nextRequestId {wait : Wait} {handler : Client π δ → Client π δ}
    (hh : ∀ s, (handler s).ledger.nextRequestId = s.ledger.nextRequestId) :
    (expiring wait handler s).ledger.nextRequestId = s.ledger.nextRequestId := by
  unfold expiring
  split_ifs
  · exact hh _
  · rfl

end Client

namespace Public

open Client

variable (env : Env) {s t : PublicClient}

structure Numbered (s : PublicClient) : Prop where
  given : ∀ request ∈ s.protocol.pending, request.requestId < s.ledger.nextRequestId
  unique : (s.protocol.pending.map PendingRequest.requestId).Nodup

theorem Numbered.thin (h : Numbered s) (hp : t.protocol.pending.Sublist s.protocol.pending)
    (hn : t.ledger.nextRequestId = s.ledger.nextRequestId) : Numbered t where
  given := fun request hm => hn ▸ h.given request (hp.subset hm)
  unique := h.unique.sublist (hp.map _)

theorem Passive.pending {reads : Bool} (h : Passive protocol reads s t) : t.protocol.pending.Sublist s.protocol.pending := by
  obtain ⟨ledger, -, rfl | ⟨-, -, reason, rfl⟩⟩ := h
  · exact List.Sublist.refl _
  · simp [protocol]

@[simp] theorem updateFreshnessState_nextRequestId (s : PublicClient) :
    (updateFreshnessState s).ledger.nextRequestId = s.ledger.nextRequestId := by
  unfold updateFreshnessState
  split_ifs
  · rfl
  · dsimp only
    split_ifs <;> simp

@[simp] theorem handleResponse_nextRequestId (response : SubscriptionResponse) (s : PublicClient) :
    (handleResponse env response s).ledger.nextRequestId = s.ledger.nextRequestId := by
  unfold handleResponse
  split
  · simp
  · dsimp only
    split_ifs <;> simp [forget, withTopics, withPending]

@[simp] theorem handleData_nextRequestId (message : PublicWsMessage) (s : PublicClient) :
    (handleData env message s).ledger.nextRequestId = s.ledger.nextRequestId := by
  unfold handleData
  split_ifs
  · simp
  · split
    · simp
    · dsimp only
      split_ifs <;> simp [count, withTopics]

@[simp] theorem received_nextRequestId (decode : FrameDecoder) (generation : ℕ) (result : Except Bytes Bytes) (s : PublicClient) :
    (received decode env generation result s).ledger.nextRequestId = s.ledger.nextRequestId := by
  unfold received
  split_ifs
  · rfl
  · cases result with
    | error reason => simp
    | ok text =>
      dsimp only
      split
      · simp [count]
      · rw [readNext_nextRequestId]
        unfold handleMessage
        split <;> simp [count]

theorem Digest.pending {message : PublicWsMessage} (h : Digest s message t) : t.protocol.pending.Sublist s.protocol.pending := by
  have hforget : ∀ request, (forget request s).protocol.pending.Sublist s.protocol.pending := fun request => List.filter_sublist
  cases h with
  | passive hp => exact Passive.pending hp
  | rejected hm hp => exact (Passive.pending hp).trans (hforget _)
  | acknowledged hm hid hok hs ledger hl =>
    simp only [announce_protocol, withTopics]
    exact hforget _
  | erased hm hid hok hs ledger hl =>
    simp only [announce_protocol, withTopics]
    exact hforget _
  | unknown ledger hl => simp
  | accepted hr ho ledger hl hu hf =>
    subst hu
    simp [withTopics]
  | refused hr ho hu hf ledger hl ht hp =>
    subst hu
    exact (Passive.pending ht).trans (by simp [withTopics])

theorem Numbered.take (h : Numbered s) : Numbered s.takeRequestId :=
  ⟨fun request hm => (h.given request hm).trans (Nat.lt_succ_self _), h.unique⟩

theorem Numbered.add (h : Numbered s) (isSubscribe : Bool) (name : Bytes) :
    Numbered (withPending (· ++ [⟨s.ledger.nextRequestId, isSubscribe, name⟩]) s.takeRequestId) where
  given := by
    intro request hm
    rcases List.mem_append.mp hm with hm | hm
    · exact h.take.given request hm
    · rw [List.mem_singleton.mp hm]
      exact Nat.lt_succ_self _
  unique := by
    simp only [withPending, takeRequestId, List.map_append, List.map_cons, List.map_nil]
    refine List.nodup_append.mpr ⟨h.unique, List.nodup_singleton _, fun id hm other ho he => ?_⟩
    obtain ⟨request, hr, rfl⟩ := List.mem_map.mp hm
    rw [List.mem_singleton] at ho
    exact absurd (h.given request hr) (by omega)

theorem sendSubscription_numbered (name : Bytes) (isSubscribe : Bool) (h : Numbered s) :
    Numbered (sendSubscription env name isSubscribe s) := by
  unfold sendSubscription
  split
  · exact h
  · dsimp only
    split
    · exact h.take.thin (Passive.pending (scheduleReconnect_passive env _ _)) (by simp)
    · exact (h.add isSubscribe name).thin (Passive.pending (write_passive env _ _)) (write_nextRequestId ..)

theorem sendAll_numbered (names : List Bytes) (h : Numbered s) : Numbered (sendAll env names s) := by
  induction names generalizing s with
  | nil => exact h
  | cons name names ih => exact ih (sendSubscription_numbered env name true h)

theorem opened_numbered (generation : ℕ) (result : Option Bytes) (h : Numbered s) : Numbered (opened env generation result s) := by
  unfold opened
  split_ifs
  · exact h
  · cases result with
    | some reason => exact h.thin (Passive.pending (scheduleReconnect_passive env _ _)) (by simp)
    | none =>
      dsimp only
      have hread : Passive protocol true (openSession s) (readNext protocol env generation (armHeartbeat (openSession s))) :=
        (arm_passive _ _).mono.trans (readNext_passive env _ _)
      have hnumbered := h.thin ((Passive.pending hread).trans (by simp)) (by simp [armHeartbeat, arm])
      have hall := sendAll_numbered env ((readNext protocol env generation (armHeartbeat (openSession s))).protocol.topics.map
        TopicRuntime.name) hnumbered
      exact ⟨hall.given, hall.unique⟩

theorem addTopic_numbered (topic : PublicTopic) (h : Numbered s) : Numbered (addTopic env topic s) := by
  unfold addTopic
  split
  · exact h.thin (by simp) (by simp)
  · next name hname =>
    split_ifs
    · exact h
    · dsimp only
      split_ifs
      · have hsent := sendSubscription_numbered env (s := withTopics (emplace name topic) s) name true ⟨h.given, h.unique⟩
        exact ⟨hsent.given, hsent.unique⟩
      · exact ⟨h.given, h.unique⟩

theorem removeTopic_numbered (topic : PublicTopic) (h : Numbered s) : Numbered (removeTopic env topic s) := by
  unfold removeTopic
  split
  · exact h
  · next name hname =>
    split_ifs
    · have hsent := sendSubscription_numbered env name false h
      exact ⟨hsent.given, hsent.unique⟩
    · exact ⟨h.given, h.unique⟩
    · exact h

theorem received_numbered (decode : FrameDecoder) (generation : ℕ) (result : Except Bytes Bytes) (h : Numbered s) :
    Numbered (received decode env generation result s) := by
  refine h.thin ?_ (received_nextRequestId env decode generation result s)
  rcases received_cases env generation result s with hp | ⟨-, -, text, message, u, -, -, hd, hp⟩
  · exact Passive.pending hp
  · exact (Passive.pending hp).trans hd.pending

theorem connect_numbered (h : Numbered s) : Numbered (connect protocol env s) := by
  refine h.thin ?_ (connect_nextRequestId protocol env s)
  cases hs : s.started with
  | false => rw [connect_stopped env hs]
  | true =>
    obtain ⟨ledger, ⟨he, -⟩ | ⟨reason, he, -⟩⟩ := connect_renewed env (P := protocol) hs
    · rw [he]
      simp [protocol]
    · rw [he]
      simp [protocol]

theorem begin_numbered (options : ClientOptions) (topics : List PublicTopic) (h : Numbered s) : Numbered (begin options env topics s) := by
  have hstop : ∀ {u : PublicClient} (reason : Bytes), u.ledger.nextRequestId = s.ledger.nextRequestId →
      Numbered (hardStop protocol reason u) := by
    intro u reason hu
    exact h.thin (by simp [protocol]) (by simpa using hu)
  unfold begin
  split_ifs
  · exact h
  · exact hstop _ rfl
  · exact hstop _ rfl
  · exact hstop _ rfl
  · exact hstop _ rfl
  · dsimp only
    split
    · exact hstop _ rfl
    · have hready : Numbered { withTopics (fun _ => (enrol topics [] s.protocol.topics).1) s with
        started := true, ledger := { s.ledger with backoff := s.ledger.backoff.markStable } } := ⟨h.given, h.unique⟩
      exact connect_numbered env hready

theorem step_numbered (options : ClientOptions) (decode : FrameDecoder) (h : Numbered s) (input : Input × Env) :
    Numbered (step options decode s input) := by
  obtain ⟨input, env⟩ := input
  unfold step guarded
  split_ifs
  · exact h
  · exact ⟨h.given, h.unique⟩
  · cases input with
    | start topics => exact begin_numbered env options topics h
    | stop => exact h.thin (by simp [handle, requestStop, protocol]) (by simp [handle, requestStop])
    | subscribe topic => exact addTopic_numbered env topic h
    | unsubscribe topic => exact removeTopic_numbered env topic h
    | opened generation result =>
      simp only [handle, completing]
      split_ifs
      · exact opened_numbered env generation result ⟨h.given, h.unique⟩
      · exact h
    | received generation result =>
      simp only [handle, completing]
      split_ifs
      · exact received_numbered env decode generation result ⟨h.given, h.unique⟩
      · exact h
    | wrote generation result =>
      exact h.thin (Passive.pending (completing_passive (wrote_passive env generation result) s))
        (completing_nextRequestId s (wrote_nextRequestId protocol env · generation result))
    | reconnectExpired =>
      simp only [handle, expiring]
      split_ifs
      · exact connect_numbered env ⟨h.given, h.unique⟩
      · exact h
    | heartbeatExpired generation =>
      exact h.thin (Passive.pending (expiring_passive (heartbeatExpired_passive env generation) s))
        (expiring_nextRequestId s (heartbeatExpired_nextRequestId protocol env · generation))
    | ackExpired generation =>
      refine h.thin (Passive.pending (expiring_passive (ackExpired_passive env generation) s)) (expiring_nextRequestId s fun s => ?_)
      unfold ackExpired
      split_ifs <;> simp
    | pop => exact ⟨h.given, h.unique⟩

end Public

end PredictFun.Wss
