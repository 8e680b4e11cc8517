import PredictFun.Wss.Linked

namespace PredictFun.Wss

open Base Codec

namespace Private

open Client

variable {options : ClientOptions} {reader : WebsocketReader} (env : Env) {s t : PrivateClient}

def withProtocol (update : PrivateProtocol → PrivateProtocol) (s : PrivateClient) : PrivateClient :=
  { s with protocol := update s.protocol }

def demandReconciliation (s : PrivateClient) : PrivateClient :=
  setState .reconciliationRequired (ascii "wallet subscription active; REST reconciliation required") true
    (withProtocol (fun protocol => { protocol with awaitingAck := false, reconciled := false }) s)

def goLive (s : PrivateClient) : PrivateClient :=
  setState .live (ascii "wallet events live; REST reconciliation complete") true
    (withProtocol (fun protocol => { protocol with reconciled := true }) s)

inductive Digest (s : PrivateClient) : PrivateWsMessage → PrivateClient → Prop
  | passive {message : PrivateWsMessage} {t : PrivateClient} (h : Passive protocol true s t) : Digest s message t
  | rejected {response : SubscriptionResponse} {t : PrivateClient}
      (h : Passive protocol true (withProtocol (fun protocol => { protocol with awaitingAck := false }) s) t) :
      Digest s (.subscription response) t
  | acknowledged {response : SubscriptionResponse} {t : PrivateClient} (ha : s.protocol.awaitingAck = true)
      (hid : response.requestId.toNat = s.protocol.pendingRequestId) (hok : response.success = true)
      (h : Passive protocol true (demandReconciliation s) t) : Digest s (.subscription response) t
  | accepted {event : WalletEvent} {t : PrivateClient} (hf : s.queue.full = false)
      (h : Passive protocol true { s with queue := s.queue.push (.data ⟨event, s.protocol.reconciled⟩ s.generation) } t) :
      Digest s (.walletEvent event) t
  | refused {event : WalletEvent} {t : PrivateClient} (hf : s.queue.full = true)
      (h : Passive protocol true { s with queue := s.queue.refuse (.data ⟨event, s.protocol.reconciled⟩ s.generation) } t)
      (hp : t.reconnectPending = true) : Digest s (.walletEvent event) t

theorem demandReconciliation_update (s : PrivateClient) (ledger : Ledger) :
    demandReconciliation { s with ledger := ledger } = { demandReconciliation s with ledger := ledger } :=
  setState_update .reconciliationRequired _ true
    (withProtocol (fun protocol => { protocol with awaitingAck := false, reconciled := false }) s) ledger

variable {message : PrivateWsMessage}

theorem Digest.of_ledger {ledger : Ledger} (ho : Owed false s ledger)
    (h : Digest { s with ledger := ledger } message t) : Digest s message t := by
  have hmono : Owed true s ledger := Passive.owed (Passive.mono (P := protocol) (Passive.of_ledger ho))
  cases h with
  | passive h => exact .passive ((Passive.of_ledger hmono).trans h)
  | rejected h => exact .rejected (Passive.trans ⟨ledger, hmono, .inl rfl⟩ h)
  | acknowledged ha hid hok h =>
    rw [demandReconciliation_update] at h
    refine Digest.acknowledged (s := s) ha hid hok (Passive.trans ⟨ledger, ?_, .inl rfl⟩ h)
    simpa [Owed, demandReconciliation, withProtocol] using hmono
  | accepted hf h => exact Digest.accepted (s := s) hf (Passive.trans ⟨ledger, hmono, .inl rfl⟩ h)
  | refused hf h hp => exact Digest.refused (s := s) hf (Passive.trans ⟨ledger, hmono, .inl rfl⟩ h) hp

theorem Digest.of_count {update : ClientStats → ClientStats} (h : Digest (s.count update) message t) :
    Digest s message t := by
  have hl : Owed false s (s.count update).ledger := Owed.of_eq rfl
  exact Digest.of_ledger hl h

theorem handleResponse_digest (generation : ℕ) (response : SubscriptionResponse) :
    Digest s (.subscription response) (readNext protocol env generation (handleResponse env response s)) := by
  unfold handleResponse
  split_ifs with hid hsuccess
  · exact .passive ((scheduleReconnect_passive env _ s).mono.trans (readNext_passive env generation _))
  · exact .rejected ((scheduleReconnect_passive env _ _).mono.trans (readNext_passive env generation _))
  · rw [not_or, Bool.not_eq_false, not_not] at hid
    refine .acknowledged hid.1 hid.2 (by simpa using hsuccess) (Passive.trans ⟨_, ?_, .inl (demandReconciliation_update s _)⟩ (readNext_passive env generation _))
    exact fun _ ho => .inl (by simpa [demandReconciliation, withProtocol] using ho)

theorem handleEvent_digest (hs : s.started = true) (generation : ℕ) (event : WalletEvent) :
    Digest s (.walletEvent event) (handleEvent env generation event s) := by
  unfold handleEvent
  dsimp only
  split_ifs with hf
  · exact .refused hf ((count_passive _ _).trans (scheduleReconnect_passive env _ _)).mono (scheduleReconnect_pending env _ hs)
  · exact .accepted (by simpa using hf) (readNext_passive env generation _)

theorem received_cases (generation : ℕ) (result : Except Bytes Bytes) (s : PrivateClient) :
    Passive protocol false s (received options reader env generation result s) ∨
    s.started = true ∧ generation = s.generation ∧ ∃ text message, result = .ok text ∧
      reader.decodePrivateWsFrame text options.decodeLimits = .ok message ∧
      Digest s message (received options reader env generation result s) := by
  unfold received
  split_ifs with h
  · exact .inl (Passive.refl false s)
  · rw [not_or, not_not, Bool.not_eq_false] at h
    cases result with
    | error reason => exact .inl (scheduleReconnect_passive env reason s)
    | ok text =>
      dsimp only
      split
      · exact .inl ((count_passive _ s).trans ((count_passive _ _).trans (scheduleReconnect_passive env _ _)))
      · next timestampMs hd =>
        exact .inr ⟨h.1, h.2, text, _, rfl, hd, .passive
          ((count_passive _ s).mono.trans ((echoHeartbeat_passive env _ _).mono.trans (readNext_passive env generation _)))⟩
      · next response hd =>
        exact .inr ⟨h.1, h.2, text, _, rfl, hd, (handleResponse_digest env (s := s.count _) generation response).of_count⟩
      · next event hd =>
        exact .inr ⟨h.1, h.2, text, _, rfl, hd, (handleEvent_digest env (s := s.count _) h.1 generation event).of_count⟩

theorem subscribe_cases (hf : (subscribe env s).ledger.faulted = false) :
    Passive protocol false s (subscribe env s) ∨
    s.channel = true ∧ ∃ requestId, Passive protocol false
      (withProtocol (fun protocol => { protocol with pendingRequestId := requestId, awaitingAck := true }) s) (subscribe env s) := by
  unfold subscribe at hf ⊢
  split at hf
  · exact .inl (scheduleReconnect_passive env _ s)
  · exact .inl (scheduleReconnect_passive env _ s)
  · dsimp only at hf ⊢
    split at hf
    · exact .inl ((takeRequestId_passive s).trans (scheduleReconnect_passive env _ _))
    · next outgoing he =>
      rw [write_faulted, Bool.or_eq_false_iff, Bool.not_eq_false'] at hf
      refine .inr ⟨hf.2, s.ledger.nextRequestId, ?_⟩
      exact (takeRequestId_passive (withProtocol _ s)).trans (write_passive env outgoing _)

theorem opened_cases {generation : ℕ} {result : Option Bytes}
    (hf : (opened env generation result s).ledger.faulted = false) :
    Passive protocol false s (opened env generation result s) ∨
    s.started = true ∧ generation = s.generation ∧ result = none ∧
      (Passive protocol true (openSession s) (opened env generation result s) ∨
        s.channel = true ∧ ∃ requestId, Passive protocol true
          (withProtocol (fun protocol => { protocol with pendingRequestId := requestId, awaitingAck := true }) (openSession s))
          (opened env generation result s)) := by
  unfold opened at hf ⊢
  split_ifs at hf ⊢ with h
  · exact .inl (Passive.refl false s)
  · rw [not_or, not_not, Bool.not_eq_false] at h
    cases result with
    | some reason => exact .inl (scheduleReconnect_passive env reason s)
    | none =>
      refine .inr ⟨h.1, h.2, rfl, ?_⟩
      dsimp only at hf ⊢
      have hread : Passive protocol true (openSession s) (readNext protocol env generation (armHeartbeat (openSession s))) :=
        (arm_passive _ _).mono.trans (readNext_passive env generation _)
      generalize readNext protocol env generation (armHeartbeat (openSession s)) = u at hf hread ⊢
      rcases subscribe_cases env hf with hsent | ⟨hc, requestId, hsent⟩
      · exact .inl (hread.trans (hsent.trans (arm_passive _ _)).mono)
      · obtain ⟨ledger, ho, rfl | ⟨-, -, reason, rfl⟩⟩ := hread
        · refine .inr ⟨by simpa using hc, requestId, Passive.trans ⟨ledger, ?_, .inl rfl⟩ (hsent.trans (arm_passive _ _)).mono⟩
          exact ho
        · simp at hc

theorem ackExpired_passive (generation : ℕ) (s : PrivateClient) : Passive protocol false s (ackExpired env generation s) := by
  unfold ackExpired
  split_ifs
  · exact scheduleReconnect_passive env _ s
  · exact Passive.refl false s

inductive Move (options : ClientOptions) (reader : WebsocketReader) (s : PrivateClient) : Input → PrivateClient → Prop
  | passive {input : Input} {t : PrivateClient} (h : Passive protocol false s t) : Move options reader s input t
  | pop : Move options reader s .pop { s with queue := s.queue.pop }
  | stop {reason : Bytes} : Move options reader s .stop (hardStop protocol reason s)
  | refused {reason : Bytes} (hs : s.started = false) : Move options reader s .start (hardStop protocol reason s)
  | start {t : PrivateClient} (hs : s.started = false) (h : Renewed protocol { s with started := true } t) :
      Move options reader s .start t
  | reconnect {t : PrivateClient} (hs : s.started = true) (h : Renewed protocol s t) : Move options reader s .reconnectExpired t
  | idle (ledger : Ledger) (hs : s.started = false) (hl : Owed false s ledger) :
      Move options reader s .reconnectExpired { s with reconnectPending := false, ledger := ledger }
  | opened {generation : ℕ} {t : PrivateClient} (hs : s.started = true) (hg : generation = s.generation)
      (hf : .opening generation ∈ s.ledger.inFlight) (h : Passive protocol true (openSession s) t) : Move options reader s (.opened generation none) t
  | subscribed {generation requestId : ℕ} {t : PrivateClient} (hs : s.started = true) (hg : generation = s.generation)
      (hf : .opening generation ∈ s.ledger.inFlight) (hc : s.channel = true)
      (h : Passive protocol true
        (withProtocol (fun protocol => { protocol with pendingRequestId := requestId, awaitingAck := true }) (openSession s)) t) :
      Move options reader s (.opened generation none) t
  | frame {generation : ℕ} {text : Bytes} {message : PrivateWsMessage} {t : PrivateClient} (hs : s.started = true)
      (hg : generation = s.generation) (hf : .reading generation ∈ s.ledger.inFlight) (hm : reader.decodePrivateWsFrame text options.decodeLimits = .ok message)
      (hd : Digest s message t) : Move options reader s (.received generation (.ok text)) t
  | reconciled {generation : ℕ} (ledger : Ledger) (hs : s.started = true) (hg : generation = s.generation)
      (hopen : s.sessionOpen = true) (hstate : s.state = .reconciliationRequired) (hl : Owed false s ledger) :
      Move options reader s (.markReconciled generation) { goLive s with ledger := ledger }

theorem start_move (s : PrivateClient) : Move options reader s .start (begin options env s) := by
  unfold begin
  split_ifs with h1 h2 h3 h4
  · exact .passive (Passive.refl false s)
  all_goals rw [Bool.not_eq_true] at h1
  · exact .refused h1
  · exact .refused h1
  · exact .refused h1
  · exact .start h1 (launch_renewed env s)

theorem opened_move {generation : ℕ} {result : Option Bytes}
    (hf : (completing (.opening generation) (opened env generation result) s).ledger.faulted = false) :
    Move options reader s (.opened generation result) (completing (.opening generation) (opened env generation result) s) := by
  rcases completing_cases (.opening generation) (opened env generation result) s with he | ⟨hi, ledger, ho, he⟩
  · rw [he]
    exact .passive (Passive.refl false s)
  · rw [he] at hf ⊢
    have howed : Owed true (openSession s) ledger := by
      intro operation hm
      rcases ho operation hm with hm | hm | ⟨hm, -⟩
      · exact .inl (by simpa using hm)
      · exact .inr (.inl (by simpa using hm))
      · cases hm
    rcases opened_cases env hf with h | ⟨hs, hg, rfl, h | ⟨hc, requestId, h⟩⟩
    · exact .passive ((Passive.of_ledger ho).trans h)
    · rw [openSession_update] at h
      exact .opened hs hg hi ((Passive.of_ledger howed).trans h)
    · rw [openSession_update] at h
      exact .subscribed hs hg hi hc (Passive.trans ⟨ledger, howed, .inl rfl⟩ h)

theorem received_move (generation : ℕ) (result : Except Bytes Bytes) (s : PrivateClient) :
    Move options reader s (.received generation result)
      (completing (.reading generation) (received options reader env generation result) s) := by
  rcases completing_cases (.reading generation) (received options reader env generation result) s with he | ⟨hi, ledger, ho, he⟩
  · rw [he]
    exact .passive (Passive.refl false s)
  · rw [he]
    rcases received_cases env generation result { s with ledger := ledger } with h | ⟨hs, hg, text, message, rfl, hm, hd⟩
    · exact .passive ((Passive.of_ledger ho).trans h)
    · exact .frame hs hg hi hm (hd.of_ledger ho)

theorem reconcile_move (generation : ℕ) (s : PrivateClient) :
    Move options reader s (.markReconciled generation) (reconcile generation s) := by
  unfold reconcile
  split_ifs with h
  · exact .passive (Passive.refl false s)
  · simp only [not_or, Bool.not_eq_false, not_not] at h
    obtain ⟨hs, hg, -, hopen, hstate⟩ := h
    have hm : Move options reader s (.markReconciled generation) _ :=
      .reconciled { s.ledger with backoff := s.ledger.backoff.markStable } hs hg hopen hstate (Owed.of_eq rfl)
    rwa [goLive, ← setState_update] at hm

theorem step_move (options : ClientOptions) (reader : WebsocketReader) (s : PrivateClient) (input : Input × Env) :
    Move options reader s input.1 (step options reader s input) := by
  obtain ⟨input, env⟩ := input
  unfold step
  dsimp only
  rcases guarded_cases (P := protocol) (handle options reader env input) s with h | ⟨-, hf, he⟩
  · exact .passive h
  · rw [he]
    cases input with
    | start => exact start_move env s
    | stop => exact .stop
    | markReconciled generation => exact reconcile_move generation s
    | opened generation result => exact opened_move env hf
    | received generation result => exact received_move env generation result s
    | wrote generation result => exact .passive (completing_passive (wrote_passive env generation result) s)
    | reconnectExpired =>
      change Move options reader s .reconnectExpired (expiring .reconnect (Client.reconnectExpired protocol env) s)
      rcases reconnecting_cases env (P := protocol) s with he | ⟨hs, h⟩ | ⟨hs, ledger, hl, he⟩
      · rw [he]
        exact .passive (Passive.refl false s)
      · exact .reconnect hs h
      · rw [he]
        exact .idle ledger hs hl
    | heartbeatExpired generation => exact .passive (expiring_passive (heartbeatExpired_passive env generation) s)
    | ackExpired generation => exact .passive (expiring_passive (ackExpired_passive env generation) s)
    | pop => exact .pop

theorem Digest.queue (h : Digest s message t) : EventQueue.Reaches OverflowMarker s.queue t.queue := by
  cases h with
  | passive hp => exact hp.queue
  | rejected hp => exact hp.queue
  | acknowledged ha hid hok hp => exact (setState_reaches _ _ _ (withProtocol _ s)).trans hp.queue
  | accepted hf hp => exact (EventQueue.Operated.push _ hf).reaches.trans hp.queue
  | refused hf hp _ => exact (EventQueue.Operated.refuse _).reaches.trans hp.queue

theorem Move.queue {input : Input} (h : Move options reader s input t) : EventQueue.Reaches OverflowMarker s.queue t.queue := by
  cases h with
  | passive hp => exact hp.queue
  | pop => exact EventQueue.Operated.pop.reaches
  | stop => exact hardStop_reaches _ s
  | refused hs => exact hardStop_reaches _ s
  | start hs hr => exact hr.queue
  | reconnect hs hr => exact hr.queue
  | idle ledger hs hl => exact .refl _
  | opened hs hg hf hp => exact (openSession_reaches s).trans hp.queue
  | subscribed hs hg hf hc hp => exact (openSession_reaches s).trans hp.queue
  | frame hs hg hf hm hd => exact hd.queue
  | reconciled ledger hs hg hopen hstate hl => exact setState_reaches _ _ _ (withProtocol _ s)

theorem run_queue (options : ClientOptions) (reader : WebsocketReader) (s : PrivateClient) (inputs : List (Input × Env)) :
    EventQueue.Reaches OverflowMarker s.queue (Runs.run (step options reader) s inputs).queue := by
  induction inputs generalizing s with
  | nil => exact .refl _
  | cons input inputs ih => exact (step_move options reader s input).queue.trans (ih _)

end Private

end PredictFun.Wss
