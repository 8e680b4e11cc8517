import PredictFun.Wss.PrivateSteps

namespace PredictFun.Wss

open Base Codec

def Operation.opens : Operation → Option ℕ
  | .opening generation => some generation
  | _ => none

namespace Client

variable {π δ : Type} (P : Protocol π) (env : Env)

def openings (s : Client π δ) : List ℕ := s.ledger.inFlight.filterMap Operation.opens

variable {generation : ℕ} {handler : Client π δ → Client π δ}

theorem mem_openings {s : Client π δ} : generation ∈ s.openings ↔ .opening generation ∈ s.ledger.inFlight := by
  simp only [openings, List.mem_filterMap]
  constructor
  · rintro ⟨operation, hm, ho⟩
    cases operation with
    | opening g =>
      cases ho
      exact hm
    | reading g => cases ho
    | writing g => cases ho
  · exact fun h => ⟨_, h, rfl⟩

section

variable (s : Client π δ) (reason : Bytes) (generation : ℕ)

@[simp] theorem owe_reading_openings : (s.owe (.reading generation)).openings = s.openings := rfl

@[simp] theorem owe_writing_openings : (s.owe (.writing generation)).openings = s.openings := rfl

@[simp] theorem arm_openings (wait : Wait) : (s.arm wait).openings = s.openings := rfl

@[simp] theorem count_openings (update : ClientStats → ClientStats) : (s.count update).openings = s.openings := rfl

@[simp] theorem takeRequestId_openings : s.takeRequestId.openings = s.openings := rfl

@[simp] theorem setState_openings (value : StreamState) (force : Bool) : (setState value reason force s).openings = s.openings := by
  simp [openings]

@[simp] theorem openSession_openings : (openSession s).openings = s.openings := by simp [openings]

@[simp] theorem renew_openings : (renew P s).openings = s.openings := by simp [openings]

@[simp] theorem hardStop_openings : (hardStop P reason s).openings = s.openings := by simp [openings]

@[simp] theorem scheduleReconnect_openings : (scheduleReconnect P env reason s).openings = s.openings := by
  unfold scheduleReconnect
  split_ifs <;> rfl

@[simp] theorem readNext_openings : (readNext P env generation s).openings = s.openings := by
  unfold readNext
  split_ifs
  · rfl
  · cases env.readRefusal with
    | some reason => exact scheduleReconnect_openings P env s reason
    | none => rfl

@[simp] theorem write_openings (outgoing : Outgoing) : (write P env outgoing s).openings = s.openings := by
  unfold write
  split_ifs
  · rfl
  · cases env.writeRefusal outgoing with
    | some reason => exact scheduleReconnect_openings ..
    | none => rfl

@[simp] theorem echoHeartbeat_openings (timestampMs : ℤ) : (echoHeartbeat P env timestampMs s).openings = s.openings := by
  unfold echoHeartbeat
  dsimp only
  split <;> simp [armHeartbeat]

@[simp] theorem wrote_openings (result : Option Bytes) : (wrote P env generation result s).openings = s.openings := by
  unfold wrote
  split_ifs
  · rfl
  · cases result <;> simp

@[simp] theorem heartbeatExpired_openings : (heartbeatExpired P env generation s).openings = s.openings := by
  unfold heartbeatExpired
  split_ifs <;> simp

end

variable {P env} {s t : Client π δ}

def Opens (s t : Client π δ) : Prop :=
  t.openings.Sublist s.openings ∨ t.generation = s.generation + 1 ∧ t.openings.Sublist ((s.generation + 1) :: s.openings)

theorem Opens.of_eq (h : t.openings = s.openings) : Opens s t := .inl (h ▸ List.Sublist.refl _)

theorem connect_opens (s : Client π δ) : Opens s (connect P env s) := by
  unfold connect
  split_ifs
  · exact .of_eq rfl
  · exact .of_eq (by rw [scheduleReconnect_openings]; exact renew_openings P s)
  · dsimp only
    split
    · exact .of_eq (by rw [scheduleReconnect_openings]; exact renew_openings P s)
    · exact .of_eq (by rw [scheduleReconnect_openings]; exact renew_openings P s)
    · exact .inr ⟨renew_generation P s, by simp [openings, owe, Operation.opens]⟩

theorem launch_opens (s : Client π δ) : Opens s (launch P env s) :=
  connect_opens { s with started := true, ledger := { s.ledger with backoff := s.ledger.backoff.markStable } }

theorem expiring_opens {wait : Wait} (hh : ∀ s, Opens s (handler s)) (s : Client π δ) :
    Opens s (expiring wait handler s) := by
  unfold expiring
  split_ifs
  · exact hh { s with ledger := { s.ledger with waits := s.ledger.waits.erase wait } }
  · exact .of_eq rfl

theorem completing_opens {operation : Operation}
    (hh : ∀ s, (handler s).openings = s.openings) (s : Client π δ) : Opens s (completing operation handler s) := by
  unfold completing
  split_ifs
  · refine .inl ?_
    rw [hh]
    exact List.erase_sublist.filterMap _
  · exact .of_eq rfl

theorem completing_spent (hh : ∀ s, (handler s).openings = s.openings)
    (hn : s.openings.Nodup) (hm : .opening generation ∈ s.ledger.inFlight) :
    generation ∉ (completing (.opening generation) handler s).openings := by
  unfold completing
  rw [if_pos hm, hh]
  have hperm : s.openings.Perm _ := (List.perm_cons_erase hm).filterMap Operation.opens
  exact (List.nodup_cons.mp (hperm.nodup_iff.mp hn)).1

theorem guarded_spent (hh : ∀ s, (handler s).openings = s.openings)
    (hn : s.openings.Nodup) (hm : .opening generation ∈ s.ledger.inFlight) :
    (∃ ledger, guarded (completing (.opening generation) handler) s = { s with ledger := ledger }) ∨
      generation ∉ (guarded (completing (.opening generation) handler) s).openings := by
  unfold guarded
  split_ifs
  · exact .inl ⟨s.ledger, rfl⟩
  · exact .inl ⟨_, rfl⟩
  · exact .inr (completing_spent hh hn hm)

structure OpensOnce (s : Client π δ) : Prop where
  once : s.openings.Nodup
  dated : ∀ generation ∈ s.openings, generation ≤ s.generation

theorem OpensOnce.opens (h : OpensOnce s) (ho : Opens s t) (hg : s.generation ≤ t.generation) : OpensOnce t := by
  rcases ho with hsub | ⟨hg, hsub⟩
  · exact ⟨h.once.sublist hsub, fun generation hm => (h.dated generation (hsub.subset hm)).trans hg⟩
  · have hnew : s.generation + 1 ∉ s.openings := fun hm => absurd (h.dated _ hm) (by omega)
    refine ⟨(List.nodup_cons.mpr ⟨hnew, h.once⟩).sublist hsub, fun generation hm => ?_⟩
    rw [hg]
    rcases List.mem_cons.mp (hsub.subset hm) with rfl | hm
    · exact le_refl _
    · exact (h.dated generation hm).trans (Nat.le_succ _)

end Client

namespace Private

open Client

variable (options : ClientOptions) (reader : WebsocketReader) (env : Env) (s : PrivateClient)

@[simp] theorem subscribe_openings : (subscribe env s).openings = s.openings := by
  unfold subscribe
  split
  · simp
  · simp
  · dsimp only
    split
    · simp
    · rw [write_openings]
      rfl

@[simp] theorem opened_openings (generation : ℕ) (result : Option Bytes) : (opened env generation result s).openings = s.openings := by
  unfold opened
  split_ifs
  · rfl
  · cases result <;> simp [armAckTimeout, armHeartbeat]

@[simp] theorem handleResponse_openings (response : SubscriptionResponse) :
    (handleResponse env response s).openings = s.openings := by
  unfold handleResponse
  split_ifs
  · simp
  · rw [scheduleReconnect_openings]
    rfl
  · rw [setState_openings]
    rfl

@[simp] theorem received_openings (generation : ℕ) (result : Except Bytes Bytes) :
    (received options reader env generation result s).openings = s.openings := by
  unfold received
  split_ifs
  · rfl
  · cases result with
    | error reason => simp
    | ok text =>
      dsimp only
      split
      · simp
      · simp
      · simp
      · unfold handleEvent
        dsimp only
        split_ifs
        · rw [scheduleReconnect_openings]
          rfl
        · rw [readNext_openings]
          rfl

theorem step_opens (input : Input × Env) : Opens s (step options reader s input) := by
  obtain ⟨input, env⟩ := input
  unfold step guarded
  split_ifs
  · exact .of_eq rfl
  · exact .of_eq rfl
  · cases input with
    | start =>
      simp only [handle, begin]
      split_ifs
      · exact .of_eq rfl
      · exact .of_eq (hardStop_openings ..)
      · exact .of_eq (hardStop_openings ..)
      · exact .of_eq (hardStop_openings ..)
      · exact launch_opens s
    | stop => exact .of_eq (by simp [handle, requestStop])
    | markReconciled generation =>
      simp only [handle, reconcile]
      split_ifs
      · exact .of_eq rfl
      · exact .of_eq (by simp [openings])
    | opened generation result => exact completing_opens (opened_openings env · generation result) s
    | received generation result => exact completing_opens (received_openings options reader env · generation result) s
    | wrote generation result => exact completing_opens (wrote_openings protocol env · generation result) s
    | reconnectExpired => exact expiring_opens (fun s => connect_opens { s with reconnectPending := false }) s
    | heartbeatExpired generation => exact expiring_opens (fun s => .of_eq (heartbeatExpired_openings protocol env s generation)) s
    | ackExpired generation =>
      refine expiring_opens (fun s => .of_eq ?_) s
      simp only [ackExpired]
      split_ifs <;> simp
    | pop => exact .of_eq rfl

end Private

end PredictFun.Wss
