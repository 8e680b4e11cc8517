import PredictFun.Execution.Commands
import PredictFun.Execution.SinglePost
import PredictFun.Lifecycle.Quarantine

namespace PredictFun.Execution

open Base Storage Lifecycle Trading

namespace System

variable (client : Client) (path : Bytes)

def Opens (input : Input) : Prop := ∃ journal options, input.action = .open journal options

def Undisturbed (hash : Bytes) (x : System) (input : Input) : Prop :=
  ¬Opens input ∧ ∀ command, x.Carries input command → ¬command.Concerns hash

def Unobserved (hash : Bytes) (x : System) (input : Input) : Prop :=
  ¬Opens input ∧ (∀ s order, x.session = some s → s.tracker.find hash = some order → order.terminal = false) ∧
    ∀ command, x.Carries input command → ¬command.Observes hash

def Held (hash : Bytes) (x : System) : Prop :=
  ∀ s, x.session = some s → ∃ order, s.tracker.find hash = some order ∧ Quarantined order

variable {client path} {x : System} {hash : Bytes}

theorem step_held {input : Input} (h : x.Held hash) (hu : Undisturbed hash x input) :
    (x.step client path input).Held hash := by
  intro s' hs
  cases hx : x.session with
  | none =>
    rw [step_none hx (fun journal options ha => hu.1 ⟨journal, options, ha⟩), hx] at hs
    cases hs
  | some s =>
    obtain ⟨order, hf, hq⟩ := h s hx
    obtain hsame | ⟨command, hc, hupdate⟩ := step_find hx hs hf
    · exact ⟨order, hsame, hq⟩
    · exact ⟨_, hupdate, Command.update_quarantined_of_not_concerns hq (hu.2 command hc)⟩

theorem run_held {inputs : List Input} (h : x.Held hash)
    (hu : Runs.Along (step client path) (Undisturbed hash) x inputs) :
    (Runs.run (step client path) x inputs).Held hash :=
  Runs.run_invariant (step client path) (I := Held hash) (fun _ _ => step_held) h hu

theorem held_of_first {first : Input} {s : Session} {order : TrackedOrder}
    (hs : (x.step client path first).session = some s)
    (hfirst : x.session = none ∨ ∃ generation, x.Carries first (.requireReconciliation generation))
    (hf : s.tracker.find hash = some order) (hn : order.terminal = false) : (x.step client path first).Held hash := by
  intro s' hs'
  rw [hs] at hs'
  cases hs'
  refine ⟨order, hf, ?_⟩
  obtain hx | ⟨generation, hc⟩ := hfirst
  · obtain ⟨journal, options, w, -, ho, -⟩ := step_open hx hs
    obtain ⟨p, hp, rfl⟩ := open_ok ho
    exact PersistentOrderTracker.open_quarantined hp hf hn
  · obtain ⟨s₀, -, ht⟩ := hc.after hs
    have hfind : (s₀.tracker.tracker.requireReconciliation generation).find hash = some order := by
      rw [← hf]
      exact congrArg (OrderTracker.find · hash) ht.symm
    exact requireReconciliation_quarantined hfind hn

theorem step_unlifted {input : Input}
    (hl : ∀ event, input.action = .walletEvent event → event.orderHash = hash →
      event.type.value = .unknown ∨ event.TerminalEvidence)
    (h : ∀ s, x.session = some s → ∃ order, s.tracker.find hash = some order ∧ (order.terminal = true ∨ Quarantined order))
    (hu : Unobserved hash x input) (s' : Session) (hs : (x.step client path input).session = some s') :
    ∃ order, s'.tracker.find hash = some order ∧ (order.terminal = true ∨ Quarantined order) := by
  cases hx : x.session with
  | none =>
    rw [step_none hx (fun journal options ha => hu.1 ⟨journal, options, ha⟩), hx] at hs
    cases hs
  | some s =>
    obtain ⟨order, hf, hq⟩ := h s hx
    have hq : Quarantined order := hq.resolve_left (by simp [hu.2.1 s order hx hf])
    obtain hsame | ⟨command, hc, hupdate⟩ := step_find hx hs hf
    · exact ⟨order, hsame, Or.inr hq⟩
    · refine ⟨_, hupdate, Command.update_quarantined hq (hu.2.2 command hc) (fun hlift => ?_)⟩
      cases command with
      | applyWalletEvent event =>
        obtain ⟨_, _, _, -, hcommand, -⟩ := hc
        obtain ⟨hh, hu, ht⟩ := hlift
        exact (hl event (Session.command_walletEvent hcommand) hh).elim hu ht
      | _ => exact hlift

/-- An order that was recovered, or was there when reconciliation was required, and was not terminal then, keeps the flag
until it is terminal or a REST record of it is applied, if no wallet event says meanwhile that it is open. -/
theorem required_until_observed (client : Client) (path : Bytes) (x : System) (first : Input) (inputs : List Input)
    (hash : Bytes) (s₁ s : Session) (order₁ : TrackedOrder) (hs₁ : (x.step client path first).session = some s₁)
    (hfirst : x.session = none ∨ ∃ generation, x.Carries first (.requireReconciliation generation))
    (hf : s₁.tracker.find hash = some order₁) (hn : order₁.terminal = false)
    (hu : Runs.Along (step client path) (Unobserved hash) (x.step client path first) inputs)
    (hl : ∀ input ∈ inputs, ∀ event, input.action = .walletEvent event → event.orderHash = hash →
      event.type.value = .unknown ∨ event.TerminalEvidence)
    (hs : (Runs.run (step client path) (x.step client path first) inputs).session = some s) :
    ∃ order, s.tracker.find hash = some order ∧ (order.terminal = true ∨ order.reconciliationRequired = true) := by
  have hheld := held_of_first hs₁ hfirst hf hn
  have hboth : Runs.Along (step client path) (fun x input => Unobserved hash x input ∧
      ∀ event, input.action = .walletEvent event → event.orderHash = hash →
        event.type.value = .unknown ∨ event.TerminalEvidence) (x.step client path first) inputs :=
    Runs.along_and (step client path) hu (Runs.along_of_forall (step client path) hl _)
  obtain ⟨order, ho, hq⟩ := Runs.run_invariant (step client path)
    (I := fun x => ∀ s, x.session = some s →
      ∃ order, s.tracker.find hash = some order ∧ (order.terminal = true ∨ Quarantined order))
    (fun x input h hq s hs => step_unlifted hq.2 h hq.1 s hs)
    (fun s hs => (hheld s hs).imp (fun _ ho => ⟨ho.1, Or.inr ho.2⟩)) hboth s hs
  exact ⟨order, ho, hq.imp_right Quarantined.required⟩

open OrderJournal (sampleJournal sampleJournal_usable)

def begunFile : Bytes := fileMagic ++ frame (submitted sampleHash tenShares)

theorem reopen_sample : ∃ t f, Session.open sampleJournal {} ⟨some begunFile, []⟩ =
      (.ok ⟨⟨sampleJournal, t, 1, false⟩, {}, false, [], [], []⟩, ⟨some f, []⟩) ∧
    t.find sampleHash = some (quarantined 1 (submitted sampleHash tenShares)) := by
  have hfits : ∀ order ∈ [submitted sampleHash tenShares],
      Encodes sampleJournal.options.maximumRecordBytes order ∧ (payload order).length < 2 ^ 32 := by
    simp only [List.mem_singleton, forall_eq]
    decide
  obtain ⟨values, hh, hv⟩ := (OrderJournal.holds_magic : sampleJournal.Holds fileMagic []).append _
    (fun order ho => (hfits order ho).1) (fun order ho => (hfits order ho).2)
  rw [List.flatMap_singleton] at hh
  change values.map Frame.order = [submitted sampleHash tenShares] at hv
  obtain ⟨t, hr⟩ := (recover_ok_iff [submitted sampleHash tenShares] begunFile.length false).mpr (by
    intro hash order hl
    rw [lookup_latestOrders] at hl
    have ho := List.mem_of_mem_filter (List.mem_of_getLast? hl)
    rw [List.mem_singleton.mp ho]
    exact ⟨by decide, (positive_iff tenShares).mp (by decide), le_of_eq zero_value.symm⟩)
  have hfind := recover_ok hr sampleHash
  have hopen : PersistentOrderTracker.open sampleJournal ⟨some begunFile, []⟩ = _ :=
    open_recovered (t := t) sampleJournal_usable (List.append_nil begunFile).symm hh (Or.inl rfl) (by rw [hv]; exact hr)
  refine ⟨t, begunFile ++ t.snapshot.flatMap frame, ?_, ?_⟩
  · unfold Session.open
    rw [if_neg (by decide), if_neg (by decide), bind_ok hopen]
    have hl : values.length = 1 := by simpa using congrArg List.length hv
    rw [hl]
    rfl
  · have hl : (latestOrders [submitted sampleHash tenShares]).lookup sampleHash = some (submitted sampleHash tenShares) := by
      decide +kernel
    have hg : nextGeneration (replayed [submitted sampleHash tenShares] begunFile.length false).orders = 1 := by
      decide +kernel
    rw [hfind, hl, hg]
    rfl

def stopped : System := ⟨some begunFile, none, []⟩

theorem reopened_event (event : WalletEvent) (hh : event.orderHash = sampleHash)
    (he : Encodes sampleJournal.options.maximumRecordBytes
      (walletEvent event (quarantined 1 (submitted sampleHash tenShares)))) :
    ∃ s₁ s₂, (stopped.step sampleClient sampleJournal.path ⟨.open {} {}, []⟩).session = some s₁ ∧
      s₁.tracker.find sampleHash = some (quarantined 1 (submitted sampleHash tenShares)) ∧
      (Runs.run (step sampleClient sampleJournal.path) (stopped.step sampleClient sampleJournal.path ⟨.open {} {}, []⟩)
        [⟨.walletEvent event, []⟩]).session = some s₂ ∧
      s₂.tracker.find sampleHash = some (walletEvent event (quarantined 1 (submitted sampleHash tenShares))) := by
  obtain ⟨t, f, ho, hf⟩ := reopen_sample
  have hx : stopped.step sampleClient sampleJournal.path ⟨.open {} {}, []⟩ =
      ⟨some f, some ⟨⟨sampleJournal, t, 1, false⟩, {}, false, [], [], []⟩, []⟩ := by
    change opened stopped (Session.open sampleJournal {} ⟨some begunFile, []⟩) = _
    rw [ho]
    rfl
  rw [hx]
  have hplan : t.plan (.applyWalletEvent event) = _ := OrderTracker.plan_applyWalletEvent ((congrArg t.find hh).trans hf)
  have hexecuted := PersistentOrderTracker.execute_ok (p := ⟨sampleJournal, t, 1, false⟩) (f := f) sampleJournal_usable
    hplan (by simpa using he)
  obtain ⟨s₂, hr, ht⟩ := (Session.react_carried sampleClient ⟨⟨sampleJournal, t, 1, false⟩, {}, false, [], [], []⟩
    (.walletEvent event) ⟨some f, []⟩).of_ok hexecuted
  refine ⟨_, s₂, rfl, hf, ?_, ?_⟩
  · rw [Runs.run_cons, Runs.run_nil, step_some rfl, hr]
  · rw [ht]
    change OrderTracker.find _ sampleHash = _
    rw [OrderTracker.find_store, walletEvent_hash, OrderTracker.quarantined_hash]
    exact if_pos rfl

theorem event_unobserved (event : WalletEvent) {x : System} {s₁ : Session} (hx : x.session = some s₁)
    (hf : s₁.tracker.find sampleHash = some (quarantined 1 (submitted sampleHash tenShares))) :
    Runs.Along (step sampleClient sampleJournal.path) (Unobserved sampleHash) x [⟨.walletEvent event, []⟩] := by
  refine ⟨⟨?_, fun s order hs ho => ?_, ?_⟩, trivial⟩
  · rintro ⟨journal, options, h⟩
    cases h
  · rw [hx] at hs
    cases hs
    rw [hf] at ho
    cases ho
    rfl
  · rintro command ⟨s, p, w, -, hc, -⟩ h
    cases hc
    exact h

/-- The private stream says that a recovered order is open: the flag is gone before any snapshot. -/
theorem accepted_event_ends_quarantine :
    ∃ s₁ s₂ order₁ order₂, (stopped.step sampleClient sampleJournal.path ⟨.open {} {}, []⟩).session = some s₁ ∧
      s₁.tracker.find sampleHash = some order₁ ∧ order₁.terminal = false ∧ order₁.reconciliationRequired = true ∧
      Runs.Along (step sampleClient sampleJournal.path) (Unobserved sampleHash)
        (stopped.step sampleClient sampleJournal.path ⟨.open {} {}, []⟩)
        [⟨.walletEvent (sampleEvent .orderAccepted tenShares .zero), []⟩] ∧
      (Runs.run (step sampleClient sampleJournal.path) (stopped.step sampleClient sampleJournal.path ⟨.open {} {}, []⟩)
        [⟨.walletEvent (sampleEvent .orderAccepted tenShares .zero), []⟩]).session = some s₂ ∧
      s₂.tracker.find sampleHash = some order₂ ∧ order₂.terminal = false ∧ order₂.reconciliationRequired = false := by
  obtain ⟨s₁, s₂, hs₁, hf₁, hs₂, hf₂⟩ :=
    reopened_event (sampleEvent .orderAccepted tenShares .zero) rfl (by decide)
  exact ⟨s₁, s₂, _, _, hs₁, hf₁, rfl, rfl, event_unobserved _ hs₁ hf₁, hs₂, hf₂, by decide +kernel, rfl⟩

theorem unknown_event_keeps_required :
    ∃ s order, (Runs.run (step sampleClient sampleJournal.path)
        (stopped.step sampleClient sampleJournal.path ⟨.open {} {}, []⟩)
        [⟨.walletEvent (sampleEvent .unknown tenShares .zero), []⟩]).session = some s ∧
      s.tracker.find sampleHash = some order ∧ (order.terminal = true ∨ order.reconciliationRequired = true) := by
  obtain ⟨s₁, s₂, hs₁, hf₁, hs₂, -⟩ :=
    reopened_event (sampleEvent .unknown tenShares .zero) rfl (by decide)
  obtain ⟨order, ho, hr⟩ := required_until_observed sampleClient sampleJournal.path stopped ⟨.open {} {}, []⟩
    [⟨.walletEvent (sampleEvent .unknown tenShares .zero), []⟩] sampleHash s₁ s₂ _ hs₁ (Or.inl rfl) hf₁ rfl
    (event_unobserved _ hs₁ hf₁)
    (fun input hi event ha _ => by
      rw [List.mem_singleton.mp hi] at ha
      cases ha
      exact Or.inl rfl) hs₂
  exact ⟨s₂, order, hs₂, ho, hr⟩

end System

end PredictFun.Execution
