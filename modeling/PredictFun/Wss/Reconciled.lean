import PredictFun.Wss.Delivery
import PredictFun.Wss.Openings
import PredictFun.Wss.PrivateSound

namespace PredictFun.Wss.Private

open Base Codec Client

variable {options : ClientOptions} {reader : WebsocketReader} {s t : PrivateClient} {input : Input} {reads : Bool}

def Flagged (s : PrivateClient) : Prop := s.protocol.reconciled = true ↔ s.state = .live

def Idle (s : PrivateClient) : Prop :=
  s.protocol.reconciled = false ∧ s.protocol.awaitingAck = false ∧ s.state ≠ .reconciliationRequired

theorem Flagged.passive (h : Flagged s) (hp : Passive protocol reads s t) : Flagged t :=
  hp.keeps (fun _ _ h => h) (fun s reason _ _ _ => by simp [Flagged, protocol]) h

theorem Idle.passive (h : Idle s) (hp : Passive protocol reads s t) : Idle t :=
  hp.keeps (fun _ _ h => h) (fun s reason _ _ _ => by simp [Idle, protocol]) h

theorem Renewed.idle (h : Renewed protocol s t) : Idle t ∧ t.state ≠ .live := by
  obtain ⟨ledger, ⟨rfl, -⟩ | ⟨reason, rfl, -⟩⟩ := h
  · simp [Idle, protocol]
  · simp [Idle, protocol]

structure Gated (s : PrivateClient) : Prop where
  opens : OpensOnce s
  flag : Flagged s
  idle : s.generation ∈ s.openings → Idle s

namespace Gated

theorem initial (options : ClientOptions) (backoff : Net.ReconnectBackoff) : Gated (Private.initial options backoff) where
  opens := ⟨List.nodup_nil, fun _ hm => nomatch hm⟩
  flag := by simp [Flagged, Private.initial]
  idle := fun hm => nomatch hm

theorem spent (hs : s.generation ∉ s.openings) (ho : Opens s t) (hg : t.generation = s.generation) : t.generation ∉ t.openings := by
  rcases ho with hsub | ⟨hg', -⟩
  · rw [hg]
    exact fun hm => hs (hsub.subset hm)
  · omega

theorem kept (h : Gated s) (ho : Opens s t) (hg : t.generation = s.generation) (hm : t.generation ∈ t.openings) : Idle s := by
  refine h.idle ?_
  by_contra hs
  exact spent hs ho hg hm

theorem of_idle (ho : OpensOnce t) (hi : Idle t) (hs : t.state ≠ .live) : Gated t :=
  ⟨ho, by simp [Flagged, hi.1, hs], fun _ => hi⟩

theorem passive {u : PrivateClient} (h : Gated s) (hp : Passive protocol reads u t) (ho : Opens s t)
    (hg : u.generation = s.generation) (hf : Flagged u) (hi : Idle s → Idle u) : Gated t where
  opens := h.opens.opens ho (hp.generation.trans hg).ge
  flag := hf.passive hp
  idle := fun hm => (hi (h.kept ho (hp.generation.trans hg) hm)).passive hp

theorem unchanged (h : Gated s) {ledger : Ledger} (ho : Opens s { s with ledger := ledger }) : Gated { s with ledger := ledger } :=
  ⟨h.opens.opens ho (le_refl _), h.flag, fun hm => h.kept ho rfl hm⟩

theorem of_spent (h : Gated s) (ho : Opens s t) (hg : t.generation = s.generation) (hs : s.generation ∉ s.openings)
    (hf : Flagged t) : Gated t :=
  ⟨h.opens.opens ho hg.ge, hf, fun hm => absurd hm (spent hs ho hg)⟩

theorem digest (h : Gated s) {message : PrivateWsMessage} (hd : Digest s message t) (ho : Opens s t) : Gated t := by
  cases hd with
  | passive hp => exact h.passive hp ho rfl h.flag id
  | rejected hp => exact h.passive hp ho rfl h.flag (fun hi => ⟨hi.1, rfl, hi.2.2⟩)
  | acknowledged ha hid hok hp =>
    refine h.of_spent ho (hp.generation.trans (by simp [demandReconciliation, withProtocol])) (fun hm => ?_) ?_
    · rw [(h.idle hm).2.1] at ha
      cases ha
    · exact Flagged.passive (by simp [Flagged, demandReconciliation, withProtocol]) hp
  | accepted hf hp => exact h.passive hp ho rfl h.flag id
  | refused hf hp _ => exact h.passive hp ho rfl h.flag id

theorem opened_flag {u : PrivateClient} (h : Gated s) (hm : .opening s.generation ∈ s.ledger.inFlight)
    (hu : u.protocol.reconciled = s.protocol.reconciled) (hs : u.state = .subscribing) : Flagged u := by
  simp [Flagged, hu, hs, (h.idle (mem_openings.mpr hm)).1]

theorem move (h : Gated s) (hm : Move options reader s input t) (ho : Opens s t)
    (hspent : ∀ result, input = .opened s.generation result → .opening s.generation ∈ s.ledger.inFlight →
      (∃ ledger, t = { s with ledger := ledger }) ∨ s.generation ∉ t.openings) : Gated t := by
  cases hm with
  | passive hp => exact h.passive hp ho rfl h.flag id
  | pop => exact ⟨h.opens.opens ho (le_refl _), h.flag, fun hm => h.kept ho rfl hm⟩
  | stop => exact of_idle (h.opens.opens ho (by simp)) (by simp [Idle, protocol]) (by simp)
  | refused hs => exact of_idle (h.opens.opens ho (by simp)) (by simp [Idle, protocol]) (by simp)
  | start hs hr => exact of_idle (h.opens.opens ho (hr.generation ▸ Nat.le_succ _)) (Renewed.idle hr).1 (Renewed.idle hr).2
  | reconnect hs hr => exact of_idle (h.opens.opens ho (hr.generation ▸ Nat.le_succ _)) (Renewed.idle hr).1 (Renewed.idle hr).2
  | idle ledger hs hl => exact ⟨h.opens.opens ho (le_refl _), h.flag, fun hm => h.kept ho rfl hm⟩
  | opened hs hg hf hp =>
    subst hg
    rcases hspent none rfl hf with ⟨ledger, rfl⟩ | hspent
    · exact h.unchanged ho
    · have hg := hp.generation.trans (openSession_generation s)
      refine ⟨h.opens.opens ho hg.ge, ?_, fun hm => absurd hm (hg ▸ hspent)⟩
      exact Flagged.passive (h.opened_flag hf (by simp) (by simp)) hp
  | subscribed hs hg hf hc hp =>
    subst hg
    rcases hspent none rfl hf with ⟨ledger, rfl⟩ | hspent
    · exact h.unchanged ho
    · have hg := hp.generation.trans (openSession_generation s)
      refine ⟨h.opens.opens ho hg.ge, ?_, fun hm => absurd hm (hg ▸ hspent)⟩
      exact Flagged.passive (h.opened_flag hf (by simp [withProtocol]) (by simp [withProtocol])) hp
  | frame hs hg hf hm hd => exact h.digest hd ho
  | reconciled ledger hs hg hopen hstate hl =>
    refine h.of_spent ho (by simp [goLive, withProtocol]) (fun hm => (h.idle hm).2.2 hstate) ?_
    simp [Flagged, goLive, withProtocol]

end Gated

theorem step_gated (options : ClientOptions) (reader : WebsocketReader) (h : Gated s) (input : Input × Env) :
    Gated (step options reader s input) := by
  refine h.move (step_move options reader s input) (step_opens options reader s input) (fun result hi hm => ?_)
  obtain ⟨input, env⟩ := input
  obtain rfl : input = .opened s.generation result := hi
  exact guarded_spent (opened_openings env · s.generation result) h.opens.once hm

theorem run_gated (options : ClientOptions) (reader : WebsocketReader) (backoff : Net.ReconnectBackoff)
    (inputs : List (Input × Env)) : Gated (Runs.run (step options reader) (initial options backoff) inputs) :=
  Runs.run_invariant (step options reader) (Q := fun _ _ => True) (I := Gated)
    (fun _ input hi _ => step_gated options reader hi input) (Gated.initial options backoff) (Runs.along_true _ _ _)

/-- An event is marked as reconciled only after the live state of its generation was announced, and no other since. -/
def Marked (history : List (QueueEntry (StreamEvent PrivateData))) : Prop :=
  ∀ before event generation, before ++ [.accepted (.data ⟨event, true⟩ generation)] <+: history → announced before = (.live, generation)

namespace Marked

variable {history : List (QueueEntry (StreamEvent PrivateData))}

theorem concat (h : Marked history) {entry : QueueEntry (StreamEvent PrivateData)}
    (he : ∀ event generation, delivery entry = some (⟨event, true⟩, generation) → announced history = (.live, generation)) :
    Marked (history ++ [entry]) := by
  intro before event generation hp
  rcases List.prefix_concat_iff.mp hp with heq | hp
  · obtain ⟨rfl, hentry⟩ := List.append_inj' heq rfl
    obtain rfl : _ = entry := List.singleton_inj.mp hentry
    exact he event generation rfl
  · exact h before event generation hp

theorem append (h : Marked history) {entries : List (QueueEntry (StreamEvent PrivateData))}
    (hn : ∀ entry ∈ entries, delivery entry = none) : Marked (history ++ entries) := by
  induction entries using List.reverseRecOn with
  | nil => simpa using h
  | append_singleton entries last ih =>
    rw [← List.append_assoc]
    refine (ih fun entry hm => hn entry (List.mem_append_left _ hm)).concat (fun event generation hd => ?_)
    rw [hn last (by simp)] at hd
    cases hd

theorem quiet (h : Marked s.queue.history) (hq : Quiet s t) : Marked t.queue.history := by
  obtain ⟨entries, he, hn⟩ := hq.history
  exact he ▸ h.append hn

end Marked

theorem Move.marked (hm : Move options reader s input t) (hflag : Flagged s) (hr : Recorded s) (h : Marked s.queue.history) :
    Marked t.queue.history := by
  rcases hm.delivery with hq | ⟨event, -, hq⟩
  · exact h.quiet hq
  · refine Marked.quiet (s := { s with queue := s.queue.push _ }) (h.concat fun event' generation hd => ?_) hq
    simp only [Wss.delivery, Option.some.injEq, Prod.mk.injEq, PrivateData.mk.injEq] at hd
    obtain ⟨⟨-, hon⟩, rfl⟩ := hd
    rw [hr.told, hflag.mp hon]

theorem run_marked (options : ClientOptions) (reader : WebsocketReader) (backoff : Net.ReconnectBackoff)
    (inputs : List (Input × Env)) : Marked (Runs.run (step options reader) (initial options backoff) inputs).queue.history := by
  induction inputs using List.reverseRecOn with
  | nil => exact fun before event generation hp => by simp [initial] at hp
  | append_singleton inputs last ih =>
    rw [Runs.run_append]
    exact (step_move options reader _ last).marked (run_gated options reader backoff inputs).flag
      (run_recorded options reader backoff inputs) ih

theorem stale_call (options : ClientOptions) (reader : WebsocketReader) (env : Env) {generation : ℕ} (hg : generation ≠ s.generation) :
    step options reader s (.markReconciled generation, env) = s := by
  have hr : reconcile generation s = s := if_pos (.inr (.inl hg))
  unfold step guarded
  simp only [handle, hr]
  split_ifs <;> rfl

section

variable (options reader) (backoff : Net.ReconnectBackoff)

def after (inputs : List (Input × Env)) : PrivateClient := Runs.run (step options reader) (initial options backoff) inputs

theorem after_move (before : List (Input × Env)) (input : Input × Env) :
    Move options reader (after options reader backoff before) input.1 (after options reader backoff (before ++ [input])) := by
  unfold after
  rw [Runs.run_append]
  exact step_move options reader _ input

variable {options reader backoff}

theorem acknowledged_before (inputs : List (Input × Env)) (h : (after options reader backoff inputs).state = .reconciliationRequired) :
    ∃ early ack late, inputs = early ++ ack :: late ∧
      Acknowledges options reader (after options reader backoff early) ack.1 ∧
      ∀ mid, mid <+: late →
        (after options reader backoff (early ++ ack :: mid)).generation = (after options reader backoff inputs).generation := by
  obtain ⟨early, ack, late, he, hearly, hlate⟩ := Runs.exists_rise (step options reader)
    (P := fun s => s.state = .reconciliationRequired ∧ s.generation = (after options reader backoff inputs).generation)
    (fun h => by simp [initial] at h) ⟨h, rfl⟩
  obtain ⟨hstate, hg⟩ := hlate [] List.nil_prefix
  refine ⟨early, ack, late, he, ?_, fun mid hm => (hlate mid hm).2⟩
  have hrise := (after_move options reader backoff early ack).rises (fun h => hearly ⟨h.1.trans hstate, h.2.trans hg⟩) (.inl hstate)
  rcases hrise.2 with ⟨-, hack⟩ | ⟨hlive, -⟩
  · exact hack
  · exact absurd (hstate.symm.trans hlive) (by decide)

theorem reconciled_since (inputs : List (Input × Env)) (h : (after options reader backoff inputs).protocol.reconciled = true) :
    ∃ before call mid, inputs = before ++ call :: mid ∧
      call.1 = .markReconciled (after options reader backoff inputs).generation ∧
      (after options reader backoff before).state = .reconciliationRequired ∧
      (after options reader backoff before).generation = (after options reader backoff inputs).generation ∧
      ∀ part, part <+: mid → (after options reader backoff (before ++ call :: part)).protocol.reconciled = true ∧
        (after options reader backoff (before ++ call :: part)).generation = (after options reader backoff inputs).generation := by
  have hflag := fun inputs => (run_gated options reader backoff inputs).flag
  obtain ⟨before, call, mid, he, hbefore, hmid⟩ := Runs.exists_rise (step options reader)
    (P := fun s => s.state = .live ∧ s.generation = (after options reader backoff inputs).generation)
    (fun h => by simp [initial] at h) ⟨(hflag inputs).mp h, rfl⟩
  obtain ⟨hlive, hg⟩ := hmid [] List.nil_prefix
  have hrise := (after_move options reader backoff before call).rises (fun h => hbefore ⟨h.1.trans hlive, h.2.trans hg⟩) (.inr hlive)
  have hsame := hrise.1.symm.trans hg
  refine ⟨before, call, mid, he, ?_, ?_, hsame, fun part hp => ⟨(hflag _).mpr (hmid part hp).1, (hmid part hp).2⟩⟩
  · rcases hrise.2 with ⟨hr, -⟩ | ⟨-, -, hi⟩
    · exact absurd (hlive.symm.trans hr) (by decide)
    · rw [← hsame]
      exact hi
  · rcases hrise.2 with ⟨hr, -⟩ | ⟨-, hs, -⟩
    · exact absurd (hlive.symm.trans hr) (by decide)
    · exact hs

theorem delivered_since {inputs : List (Input × Env)} {i : ℕ} {event : WalletEvent} {generation : ℕ}
    (h : (delivered (after options reader backoff inputs).queue)[i]? = some (⟨event, true⟩, generation)) :
    ∃ before call mid frame rest, inputs = before ++ call :: mid ++ frame :: rest ∧ call.1 = .markReconciled generation ∧
      (after options reader backoff before).state = .reconciliationRequired ∧
      (after options reader backoff before).generation = generation ∧
      (∀ part, part <+: mid → (after options reader backoff (before ++ call :: part)).protocol.reconciled = true ∧
        (after options reader backoff (before ++ call :: part)).generation = generation) ∧
      (delivered (after options reader backoff (before ++ call :: mid)).queue).length = i ∧
      Accepts options reader (after options reader backoff (before ++ call :: mid)) frame.1 event := by
  obtain ⟨received, frame, rest, he, hlength, event', haccepts, hpair⟩ := Runs.exists_appended (step options reader)
    (f := fun s => delivered s.queue)
    (R := fun s input datum => ∃ event, Accepts options reader s input.1 event ∧ datum = (⟨event, s.protocol.reconciled⟩, s.generation))
    (fun s input => by
      rcases (step_move options reader s input).delivery with hq | ⟨event, ha, hq⟩
      · exact .inl hq.delivered
      · exact .inr ⟨_, hq.delivered.trans (delivered_push_data ..), event, ha, rfl⟩)
    rfl h
  simp only [Prod.mk.injEq, PrivateData.mk.injEq] at hpair
  obtain ⟨⟨rfl, hon⟩, rfl⟩ := hpair
  obtain ⟨before, call, mid, rfl, hcall, hstate, hg, hmid⟩ := reconciled_since received hon.symm
  exact ⟨before, call, mid, frame, rest, he, hcall, hstate, hg, hmid, hlength, haccepts⟩

variable (options reader backoff)

theorem reconciled_only_after_call (inputs : List (Input × Env)) :
    ((after options reader backoff inputs).protocol.reconciled = true ↔ (after options reader backoff inputs).state = .live) ∧
    (∀ call, (after options reader backoff inputs).protocol.reconciled = false →
      (after options reader backoff (inputs ++ [call])).protocol.reconciled = true →
      call.1 = .markReconciled (after options reader backoff inputs).generation ∧
      ∃ early ack late, inputs = early ++ ack :: late ∧
        Acknowledges options reader (after options reader backoff early) ack.1 ∧
        ∀ mid, mid <+: late →
          (after options reader backoff (early ++ ack :: mid)).generation = (after options reader backoff inputs).generation) ∧
    Marked (after options reader backoff inputs).queue.history ∧
    (∀ payload generation, .data payload generation ∈ (after options reader backoff inputs).queue.waiting →
      (payload, generation) ∈ delivered (after options reader backoff inputs).queue) ∧
    (∀ (i : ℕ) event generation,
      (delivered (after options reader backoff inputs).queue)[i]? = some (⟨event, true⟩, generation) →
      ∃ before call mid frame rest, inputs = before ++ call :: mid ++ frame :: rest ∧ call.1 = .markReconciled generation ∧
        (after options reader backoff before).state = .reconciliationRequired ∧
        (after options reader backoff before).generation = generation ∧
        (∀ part, part <+: mid → (after options reader backoff (before ++ call :: part)).protocol.reconciled = true ∧
          (after options reader backoff (before ++ call :: part)).generation = generation) ∧
        (delivered (after options reader backoff (before ++ call :: mid)).queue).length = i ∧
        Accepts options reader (after options reader backoff (before ++ call :: mid)) frame.1 event) ∧
    ∀ generation env, generation ≠ (after options reader backoff inputs).generation →
      after options reader backoff (inputs ++ [(.markReconciled generation, env)]) = after options reader backoff inputs := by
  have hflag : ∀ inputs, Flagged (after options reader backoff inputs) := fun inputs => (run_gated options reader backoff inputs).flag
  refine ⟨hflag inputs, fun call hoff hon => ?_, run_marked options reader backoff inputs,
    (run_recorded options reader backoff inputs).waiting, fun i event generation => delivered_since, fun generation env hg => ?_⟩
  · have hlive := (hflag _).mp hon
    have hdead : (after options reader backoff inputs).state ≠ .live := fun h => by simp [(hflag inputs).mpr h] at hoff
    have hrise := (after_move options reader backoff inputs call).rises (fun h => hdead (h.1.trans hlive)) (.inr hlive)
    rcases hrise.2 with ⟨hr, -⟩ | ⟨-, hs, hi⟩
    · exact absurd (hlive.symm.trans hr) (by decide)
    · exact ⟨hi, acknowledged_before inputs hs⟩
  · unfold after
    rw [Runs.run_append]
    exact stale_call options reader env hg

end

def reconciledRun : List (Input × Env) :=
  [(.start, {}), (.opened 1 none, {}), (.received 1 (.ok [0, 1]), {}), (.markReconciled 1, {}), (.received 1 (.ok [1, 0]), {})]

theorem reconciled_event_after_call :
    ∃ event, (delivered (after { maxPendingEvents := 8 } shortReader (.ofPolicy {} 1) reconciledRun).queue)[0]? =
        some (⟨event, true⟩, 1) ∧
      ∃ before call rest, reconciledRun = before ++ call :: rest ∧ call.1 = .markReconciled 1 := by
  have hmap : (delivered (after { maxPendingEvents := 8 } shortReader (.ofPolicy {} 1) reconciledRun).queue)[0]?.map
      (fun datum => (datum.1.reconciled, datum.2)) = some (true, 1) := by decide
  obtain ⟨⟨⟨event, reconciled⟩, generation⟩, hdatum, hpair⟩ := Option.map_eq_some_iff.mp hmap
  simp only [Prod.mk.injEq] at hpair
  obtain ⟨rfl, rfl⟩ := hpair
  obtain ⟨before, call, mid, frame, rest, he, hcall, -⟩ :=
    (reconciled_only_after_call _ _ _ reconciledRun).2.2.2.2.1 0 event 1 hdatum
  exact ⟨event, hdatum, before, call, mid ++ frame :: rest, by simpa using he, hcall⟩

end PredictFun.Wss.Private
