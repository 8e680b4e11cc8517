import PredictFun.Wss.PrivateSteps
import PredictFun.Wss.PublicSteps

namespace PredictFun.Wss

open Base Codec

section

variable {δ : Type}

def delivery : QueueEntry (StreamEvent δ) → Option (δ × ℕ)
  | .accepted (.data payload generation) => some (payload, generation)
  | _ => none

def delivered (q : EventQueue (StreamEvent δ)) : List (δ × ℕ) := q.history.filterMap delivery

def tell (last : StreamState × ℕ) : QueueEntry (StreamEvent δ) → StreamState × ℕ
  | .accepted (.state value _ generation) | .overflowed (.state value _ generation) _ _ => (value, generation)
  | _ => last

def announced (history : List (QueueEntry (StreamEvent δ))) : StreamState × ℕ := history.foldl tell (.stopped, 0)

@[simp] theorem announced_append (history : List (QueueEntry (StreamEvent δ))) (entry : QueueEntry (StreamEvent δ)) :
    announced (history ++ [entry]) = tell (announced history) entry := by simp [announced]

@[simp] theorem delivered_push_data (q : EventQueue (StreamEvent δ)) (payload : δ) (generation : ℕ) :
    delivered (q.push (.data payload generation)) = delivered q ++ [(payload, generation)] := by
  simp [delivered, EventQueue.push, delivery]

end

namespace Client

variable {π δ : Type} {P : Protocol π} {s t u : Client π δ} {reads : Bool}

structure Quiet (s t : Client π δ) : Prop where
  history : ∃ entries, t.queue.history = s.queue.history ++ entries ∧ ∀ entry ∈ entries, delivery entry = none
  waiting : ∀ payload generation, .data payload generation ∈ t.queue.waiting → .data payload generation ∈ s.queue.waiting
  told : announced s.queue.history = (s.state, s.generation) → announced t.queue.history = (t.state, t.generation)

namespace Quiet

theorem delivered (h : Quiet s t) : delivered t.queue = delivered s.queue := by
  obtain ⟨entries, he, hn⟩ := h.history
  simp [Wss.delivered, he, List.filterMap_eq_nil_iff.mpr hn]

theorem of_queue (hq : t.queue = s.queue) (hs : t.state = s.state) (hg : t.generation = s.generation) : Quiet s t where
  history := ⟨[], by simp [hq], by simp⟩
  waiting := fun _ _ hm => hq ▸ hm
  told := fun h => by rw [hq, hs, hg, h]

theorem trans (h : Quiet s t) (hu : Quiet t u) : Quiet s u where
  history := by
    obtain ⟨first, hf, hfn⟩ := h.history
    obtain ⟨second, hs, hsn⟩ := hu.history
    refine ⟨first ++ second, by rw [hs, hf, List.append_assoc], fun entry hm => ?_⟩
    exact (List.mem_append.mp hm).elim (hfn entry) (hsn entry)
  waiting := fun payload generation hm => h.waiting payload generation (hu.waiting payload generation hm)
  told := fun ht => hu.told (h.told ht)

theorem of_entry {entry : QueueEntry (StreamEvent δ)} (hh : t.queue.history = s.queue.history ++ [entry])
    (hn : delivery entry = none)
    (hw : ∀ payload generation, .data payload generation ∈ t.queue.waiting → .data payload generation ∈ s.queue.waiting)
    (ht : announced s.queue.history = (s.state, s.generation) → tell (announced s.queue.history) entry = (t.state, t.generation)) :
    Quiet s t where
  history := ⟨[entry], hh, by simpa using hn⟩
  waiting := hw
  told := fun h => by rw [hh, announced_append, ht h]

theorem set_state (value : StreamState) (reason : Bytes) (force : Bool) (hq : u.queue = s.queue)
    (hf : force = true ∨ u.state = s.state ∧ u.generation = s.generation) : Quiet s (setState value reason force u) := by
  unfold setState
  split_ifs with hc
  · obtain ⟨hs, hg⟩ := hf.resolve_left (by simp [hc.1])
    exact of_queue hq hs hg
  · rw [hq]
    unfold EventQueue.force
    split_ifs with hfull
    · refine of_entry rfl rfl (fun payload generation hm => ?_) (fun _ => rfl)
      simp at hm
    · refine of_entry rfl rfl (fun payload generation hm => ?_) (fun _ => rfl)
      simpa using hm

theorem pop (s : Client π δ) : Quiet s { s with queue := s.queue.pop } := by
  unfold EventQueue.pop
  split
  · exact of_queue rfl rfl rfl
  · next event rest he =>
    refine of_entry rfl rfl (fun payload generation hm => ?_) id
    exact he ▸ List.mem_cons_of_mem _ hm

theorem refuse (s : Client π δ) (event : StreamEvent δ) : Quiet s { s with queue := s.queue.refuse event } :=
  of_entry rfl rfl (fun _ _ hm => hm) id

theorem other (h : Quiet u t) (hq : u.queue = s.queue) (hs : u.state = s.state) (hg : u.generation = s.generation) : Quiet s t :=
  (of_queue hq hs hg).trans h

theorem drop (reason : Bytes) (hq : u.queue = s.queue) : Quiet s (drop P reason u) := set_state _ _ _ hq (.inl rfl)

theorem hard_stop (reason : Bytes) (hq : u.queue = s.queue) : Quiet s (hardStop P reason u) := set_state _ _ _ hq (.inl rfl)

theorem open_session (s : Client π δ) : Quiet s (openSession s) := set_state _ _ _ rfl (.inl rfl)

theorem with_ledger (h : Quiet s t) (ledger : Ledger) : Quiet s { t with ledger := ledger } := h.trans (of_queue rfl rfl rfl)

theorem passive (h : Passive P reads s t) : Quiet s t := by
  obtain ⟨ledger, -, rfl | ⟨-, -, reason, rfl⟩⟩ := h
  · exact of_queue rfl rfl rfl
  · exact (drop reason rfl).with_ledger ledger

theorem renewed (h : Renewed P s t) (hq : s.queue = u.queue) : Quiet u t := by
  have hrenew : Quiet u (renew P s) := set_state _ _ _ hq (.inl rfl)
  obtain ⟨ledger, ⟨rfl, -⟩ | ⟨reason, rfl, -⟩⟩ := h
  · exact hrenew.trans (of_queue rfl rfl rfl)
  · exact (hrenew.trans (drop reason rfl)).with_ledger ledger

end Quiet

structure Recorded (s : Client π δ) : Prop where
  waiting : ∀ payload generation, .data payload generation ∈ s.queue.waiting → (payload, generation) ∈ delivered s.queue
  told : announced s.queue.history = (s.state, s.generation)

theorem Recorded.quiet (h : Recorded s) (hq : Quiet s t) : Recorded t where
  waiting := fun payload generation hm => hq.delivered ▸ h.waiting payload generation (hq.waiting payload generation hm)
  told := hq.told h.told

theorem Recorded.push (h : Recorded s) (payload : δ) (generation : ℕ) :
    Recorded { s with queue := s.queue.push (.data payload generation) } where
  waiting := by
    intro other of hm
    simp only [EventQueue.waiting_push, List.mem_append, List.mem_singleton, StreamEvent.data.injEq] at hm
    rw [delivered_push_data, List.mem_append, List.mem_singleton, Prod.mk.injEq]
    exact hm.imp_left (h.waiting other of)
  told := by
    rw [EventQueue.push, announced_append]
    exact h.told

end Client

namespace Public

open Client

variable {decode : FrameDecoder} {s t : PublicClient} {input : Input}

theorem announce_quiet {u : PublicClient} (hq : u.queue = s.queue) (hs : u.state = s.state) (hg : u.generation = s.generation) :
    Quiet s (announce u) := .set_state _ _ _ hq (.inr ⟨hs, hg⟩)

def refreshed (message : PublicWsMessage) (runtime : TopicRuntime) (s : PublicClient) : PublicClient :=
  announce (withTopics (modify runtime.name (refresh message)) s)

def Accepts (s : PublicClient) (message : PublicWsMessage) (runtime : TopicRuntime) : Prop :=
  route message s.protocol.topics = some runtime ∧ regressed message runtime = false ∧
    (refreshed message runtime s).queue.full = false

def joined (message : PublicWsMessage) (runtime : TopicRuntime) (ledger : Ledger) (s : PublicClient) : PublicClient :=
  { refreshed message runtime s with
    queue := (refreshed message runtime s).queue.push (.data ⟨runtime.topic, message, true⟩ s.generation)
    ledger := ledger }

theorem joined_delivered (message : PublicWsMessage) (runtime : TopicRuntime) (ledger : Ledger) (s : PublicClient) :
    delivered (joined message runtime ledger s).queue = delivered s.queue ++ [(⟨runtime.topic, message, true⟩, s.generation)] := by
  have hq : Quiet s (refreshed message runtime s) := announce_quiet rfl rfl rfl
  rw [joined, delivered_push_data, hq.delivered]

theorem Digest.delivery {message : PublicWsMessage} (h : Digest s message t) :
    Quiet s t ∨ ∃ runtime ledger, Accepts s message runtime ∧ t = joined message runtime ledger s := by
  cases h with
  | passive hp => exact .inl (.passive hp)
  | rejected hm hp => exact .inl ((Quiet.passive hp).other rfl rfl rfl)
  | @acknowledged response request hm hid hok hs ledger hl =>
    have ha : Quiet s (announce (withTopics (modify request.topicName acknowledge) (forget request s))) := announce_quiet rfl rfl rfl
    exact .inl (ha.with_ledger ledger)
  | @erased response request hm hid hok hs ledger hl =>
    have ha : Quiet s (announce (withTopics (erase request.topicName) (forget request s))) := announce_quiet rfl rfl rfl
    exact .inl (ha.with_ledger ledger)
  | unknown ledger hl => exact .inl ((Quiet.set_state _ _ _ rfl (.inl rfl)).with_ledger ledger)
  | @accepted _ runtime hr ho ledger hl u hu hf =>
    subst hu
    exact .inr ⟨runtime, ledger, ⟨hr, ho, hf⟩, by simp [joined, refreshed, withTopics]⟩
  | @refused _ runtime hr ho u _ hu hf ledger hl ht hp =>
    subst hu
    have ha : Quiet s (announce (withTopics (modify runtime.name (refresh message)) s)) := announce_quiet rfl rfl rfl
    exact .inl ((ha.trans (.refuse _ _)).trans ((Quiet.passive ht).other rfl rfl rfl))

theorem Move.delivery (h : Move decode s input t) :
    Quiet s t ∨ ∃ text message runtime ledger, Due (.reading s.generation) s ∧ input = .received s.generation (.ok text) ∧
      decode text (resolver s.protocol.topics) = .ok message ∧ Accepts s message runtime ∧
      Passive protocol true (joined message runtime ledger s) t := by
  cases h with
  | passive hp => exact .inl (.passive hp)
  | pop => exact .inl (.pop s)
  | stop => exact .inl (.hard_stop _ rfl)
  | refused hs he => exact .inl (.hard_stop _ rfl)
  | start hs he hr => exact .inl (.renewed hr rfl)
  | reconnect hs hr => exact .inl (.renewed hr rfl)
  | idle ledger hs hl => exact .inl (.of_queue rfl rfl rfl)
  | opened hs hg hf hr hd hp => exact .inl ((Quiet.open_session s).trans ((Quiet.passive hp).other rfl rfl rfl))
  | frame hs hg hf hm hd hp =>
    subst hg
    rcases hd.delivery with hq | ⟨runtime, ledger, ha, rfl⟩
    · exact .inl (hq.trans (.passive hp))
    · exact .inr ⟨_, _, runtime, ledger, ⟨hf, hs, rfl⟩, rfl, hm, ha, hp⟩
  | degraded hn => exact .inl (.set_state _ _ _ rfl (.inl rfl))
  | added hn hc hr ho hp => exact .inl ((Quiet.passive hp).other rfl rfl rfl)
  | removed hn hc ho => exact .inl (.of_queue rfl rfl rfl)
  | withdrawn hn hc ho hr hp => exact .inl ((Quiet.passive hp).other rfl rfl rfl)

end Public

namespace Private

open Client

variable {options : ClientOptions} {reader : WebsocketReader} {s t : PrivateClient} {input : Input}

def Accepts (options : ClientOptions) (reader : WebsocketReader) (s : PrivateClient) (input : Input) (event : WalletEvent) : Prop :=
  Due (.reading s.generation) s ∧ s.queue.full = false ∧ ∃ text, input = .received s.generation (.ok text) ∧
    reader.decodePrivateWsFrame text options.decodeLimits = .ok (.walletEvent event)

theorem Digest.delivery {message : PrivateWsMessage} (h : Digest s message t) :
    Quiet s t ∨ ∃ event, message = .walletEvent event ∧ s.queue.full = false ∧
      Passive protocol true { s with queue := s.queue.push (.data ⟨event, s.protocol.reconciled⟩ s.generation) } t := by
  cases h with
  | passive hp => exact .inl (.passive hp)
  | rejected hp => exact .inl ((Quiet.passive hp).other rfl rfl rfl)
  | acknowledged ha hid hok hp =>
    have hd : Quiet s (demandReconciliation s) := .set_state _ _ _ rfl (.inl rfl)
    exact .inl (hd.trans (.passive hp))
  | accepted hf hp => exact .inr ⟨_, rfl, hf, hp⟩
  | refused hf hp _ => exact .inl ((Quiet.refuse s _).trans (.passive hp))

theorem Move.delivery (h : Move options reader s input t) :
    Quiet s t ∨ ∃ event, Accepts options reader s input event ∧
      Quiet { s with queue := s.queue.push (.data ⟨event, s.protocol.reconciled⟩ s.generation) } t := by
  cases h with
  | passive hp => exact .inl (.passive hp)
  | pop => exact .inl (.pop s)
  | stop => exact .inl (.hard_stop _ rfl)
  | refused hs => exact .inl (.hard_stop _ rfl)
  | start hs hr => exact .inl (.renewed hr rfl)
  | reconnect hs hr => exact .inl (.renewed hr rfl)
  | idle ledger hs hl => exact .inl (.of_queue rfl rfl rfl)
  | opened hs hg hf hp => exact .inl ((Quiet.open_session s).trans (.passive hp))
  | subscribed hs hg hf hc hp =>
    exact .inl ((Quiet.open_session s).trans ((Quiet.passive hp).other rfl rfl rfl))
  | frame hs hg hf hm hd =>
    subst hg
    rcases hd.delivery with hq | ⟨event, rfl, hfull, hp⟩
    · exact .inl hq
    · exact .inr ⟨event, ⟨⟨hf, hs, rfl⟩, hfull, _, rfl, hm⟩, .passive hp⟩
  | reconciled ledger hs hg hopen hstate hl =>
    have hlive : Quiet s (goLive s) := .set_state _ _ _ rfl (.inl rfl)
    exact .inl (hlive.with_ledger ledger)

theorem Move.recorded (h : Move options reader s input t) (hr : Recorded s) : Recorded t := by
  rcases h.delivery with hq | ⟨event, -, hq⟩
  · exact hr.quiet hq
  · exact (hr.push _ _).quiet hq

theorem run_recorded (options : ClientOptions) (reader : WebsocketReader) (backoff : Net.ReconnectBackoff)
    (inputs : List (Input × Env)) : Recorded (Runs.run (step options reader) (initial options backoff) inputs) :=
  Runs.run_invariant (step options reader) (Q := fun _ _ => True) (I := Recorded)
    (fun s input hi _ => (step_move options reader s input).recorded hi) ⟨fun _ _ hm => (nomatch hm), rfl⟩ (Runs.along_true _ _ _)

end Private

end PredictFun.Wss
