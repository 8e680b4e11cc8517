import PredictFun.Execution.Session

namespace PredictFun.Execution

open Base Storage Lifecycle Trading

theorem filterMap_modify_perm {α γ : Type} (p : α → Option γ) (f : α → α) {xs : List α} {index : ℕ} {x : α}
    (h : xs[index]? = some x) :
    ((p x).toList ++ (xs.modify index f).filterMap p).Perm ((p (f x)).toList ++ xs.filterMap p) := by
  obtain ⟨hi, rfl⟩ := List.getElem?_eq_some_iff.mp h
  have hsplit : xs = xs.take index ++ xs[index] :: xs.drop (index + 1) := by simp
  rw [List.modify_eq_take_cons_drop hi]
  generalize xs[index] = x at hsplit ⊢
  have hcons (y : α) (ys : List α) : (y :: ys).filterMap p = (p y).toList ++ ys.filterMap p := by
    cases hy : p y <;> simp [hy]
  conv_rhs => rw [hsplit]
  rw [← Multiset.coe_eq_coe]
  simp only [List.filterMap_append, hcons, ← Multiset.coe_add]
  abel

theorem forall_mem_modify {α : Type} {P Q : α → Prop} {f : α → α} {l : List α} {index : ℕ} (h : ∀ a ∈ l, P a)
    (hkeep : ∀ a, P a → Q a) (hf : ∀ a, l[index]? = some a → P a → Q (f a)) : ∀ a ∈ l.modify index f, Q a := by
  intro a ha
  obtain ⟨k, hk⟩ := List.mem_iff_getElem?.mp ha
  rw [List.getElem?_modify] at hk
  obtain ⟨old, hold, rfl⟩ := Option.map_eq_some_iff.mp hk
  have hp : P old := h old (List.mem_of_getElem? hold)
  split_ifs with he
  · subst he
    exact hf old hold hp
  · exact hkeep old hp

namespace SubmitOperation

def pending (op : SubmitOperation) : Option Bytes :=
  match op.stage with
  | .running _ operation => if operation.dispatched then none else some op.hash
  | _ => none

def Traced (op : SubmitOperation) : Prop :=
  ∀ mutation operation, op.stage = .running mutation operation →
    ∃ events, operation = Runs.run (Operation.step mutation) .initial events

theorem Traced.of_stage {op op' : SubmitOperation} (h : op.Traced) (hs : op'.stage = op.stage) : op'.Traced := by
  intro mutation operation hr
  exact h mutation operation (hs.symm.trans hr)

variable {op : SubmitOperation}

theorem Traced.valid (h : op.Traced) {mutation : Mutation CreateOrderReceipt}
    {operation : Operation CreateOrderReceipt} (hs : op.stage = .running mutation operation) : operation.Valid := by
  obtain ⟨events, rfl⟩ := h mutation operation hs
  exact Operation.run_valid mutation events

theorem Traced.trade (h : op.Traced) (event : Event) : (op.trade event).Traced := by
  intro mutation operation hs
  unfold SubmitOperation.trade at hs
  split at hs
  next m o hr =>
    cases hs
    obtain ⟨events, rfl⟩ := h _ _ hr
    exact ⟨events ++ [event], by rw [Runs.run_append]; rfl⟩
  · exact h _ _ hs

theorem trade_pending (h : op.Traced) (event : Event) :
    (op.trade event).pending = op.pending ∧ (op.trade event).posted.drop op.posted.length = [] ∨
      ∃ request, op.pending = some op.hash ∧ (op.trade event).pending = none ∧
        (op.trade event).posted.drop op.posted.length = [request] := by
  obtain ⟨hash, stage, result⟩ := op
  cases stage with
  | running mutation operation =>
    have hv : operation.Valid := h.valid rfl
    have hpending (o : Operation CreateOrderReceipt) : pending ⟨hash, .running mutation o, result⟩ =
        if o.dispatched then none else some hash := rfl
    change pending ⟨hash, .running mutation (operation.step mutation event), result⟩ = _ ∧
        (operation.step mutation event).posted.drop operation.posted.length = [] ∨ ∃ request, _ ∧
      pending ⟨hash, .running mutation (operation.step mutation event), result⟩ = none ∧
        (operation.step mutation event).posted.drop operation.posted.length = [request]
    simp only [hpending]
    cases Operation.step_move (m := mutation) hv event with
    | quiet hp hd => simp [hp, hd]
    | report _ _ _ hp hd => simp [hp, hd]
    | post request _ hu hp hd => exact Or.inr ⟨request, by simp [hu], by simp [hd], by simp [hp]⟩
  | _ => exact Or.inl ⟨rfl, rfl⟩

end SubmitOperation

namespace Session

def waiting (s : Session) : List Bytes := s.submissions.filterMap SubmitOperation.pending

def Traced (s : Session) : Prop := ∀ op ∈ s.submissions, op.Traced

variable {s s' : Session} {index : ℕ} {w : World Byte}

theorem Traced.modify {f : SubmitOperation → SubmitOperation} (h : s.Traced)
    (hf : ∀ op, s.submissions[index]? = some op → op.Traced → (f op).Traced) :
    ∀ op ∈ s.submissions.modify index f, op.Traced := forall_mem_modify h (fun _ ht => ht) hf

structure Keeps (s s' : Session) : Prop where
  waiting : s'.waiting.Perm s.waiting
  traced : s.Traced → s'.Traced

theorem Keeps.of_submissions (h : s'.submissions = s.submissions) : s.Keeps s' :=
  ⟨by rw [Session.waiting, h, Session.waiting], fun ht => by rwa [Session.Traced, h]⟩

theorem Keeps.modify {f : SubmitOperation → SubmitOperation} (h : s'.submissions = s.submissions.modify index f)
    (hp : ∀ op, s.submissions[index]? = some op → (f op).pending = op.pending ∧ (op.Traced → (f op).Traced)) :
    s.Keeps s' where
  waiting := by
    rw [Session.waiting, h, Session.waiting]
    cases hi : s.submissions[index]? with
    | none => rw [List.modify_eq_self (List.getElem?_eq_none_iff.mp hi)]
    | some op =>
      have hperm := filterMap_modify_perm SubmitOperation.pending f hi
      rwa [(hp op hi).1, List.perm_append_left_iff] at hperm
  traced := fun ht => by
    rw [Session.Traced, h]
    exact ht.modify (fun op ho => (hp op ho).2)

/-- What a callback does to the tracker and to the posts that may still come: it hands requests over, or it carries out
one command of the tracker, which may be the begin of a submission. -/
inductive Effect (s : Session) (w : World Byte) : List Bytes → Option Session × World Byte → Prop
  | idle {handed : List Bytes} {s' : Session} (tracker : s'.tracker = s.tracker)
      (waiting : (handed ++ s'.waiting).Perm s.waiting) (traced : s.Traced → s'.Traced) : Effect s w handed (some s', w)
  | done {command : Command} {p : PersistentOrderTracker} {w' : World Byte} {s' : Session}
      (executed : s.tracker.execute command w = (.ok p, w')) (tracker : s'.tracker = p) (keeps : s.Keeps s') :
      Effect s w [] (some s', w')
  | begun {hash : Bytes} {amount : ExactDecimal} {p : PersistentOrderTracker} {w' : World Byte} {s' : Session}
      (executed : s.tracker.execute (.beginSubmission hash amount) w = (.ok p, w')) (tracker : s'.tracker = p)
      (waiting : s'.waiting.Perm (hash :: s.waiting)) (traced : s.Traced → s'.Traced) : Effect s w [] (some s', w')
  | failed {command : Command} {error : Error} {w' : World Byte} {s' : Session}
      (executed : s.tracker.execute command w = (.error error, w')) (tracker : s'.tracker = s.tracker)
      (keeps : s.Keeps s') : Effect s w [] (some s', w')
  | crashed {command : Command} {w' : World Byte} (executed : s.tracker.execute command w = (.crashed, w')) :
      Effect s w [] (none, w')
  | exit : Effect s w [] (none, w)

theorem Effect.handed_subset {handed : List Bytes} {result : Option Session × World Byte} (h : Effect s w handed result) :
    handed ⊆ s.waiting := by
  cases h with
  | idle _ waiting => exact fun hash hm => waiting.subset (List.mem_append_left _ hm)
  | _ => exact List.nil_subset _

theorem Keeps.effect (h : s.Keeps s') (ht : s'.tracker = s.tracker) : Effect s w [] (s'.idle w) :=
  .idle ht h.waiting h.traced

theorem idle_effect (ht : s'.tracker = s.tracker) (hs : s'.submissions = s.submissions) : Effect s w [] (s'.idle w) :=
  (Keeps.of_submissions hs).effect ht

variable {α : Type} {op : SubmitOperation} {request : CreateOrderRequest} {deadline : Option ℕ}

variable {operation : Disk Byte Error (α × PersistentOrderTracker)}

theorem persist_cases (command : Command)
    (next : Result α → Session → Session) (h : Prod.snd <$> operation = s.tracker.execute command) (w : World Byte) :
    (∃ value p w', s.tracker.execute command w = (.ok p, w') ∧
      s.persist operation next w = (some (next (.ok value) { s with tracker := p }), w')) ∨
    (∃ error w', s.tracker.execute command w = (.error error, w') ∧
      s.persist operation next w = (some (next (.error error) s), w')) ∨
    ∃ w', s.tracker.execute command w = (.crashed, w') ∧ s.persist operation next w = (none, w') := by
  rw [← h, persist]
  change (∃ value p w', andThen operation _ w = _ ∧ _) ∨ (∃ error w', andThen operation _ w = _ ∧ _) ∨
    ∃ w', andThen operation _ w = _ ∧ _
  unfold andThen
  rcases operation w with ⟨⟨value, p⟩ | error | _, w'⟩
  · exact Or.inl ⟨value, p, w', rfl, rfl⟩
  · exact Or.inr (Or.inl ⟨error, w', rfl, rfl⟩)
  · exact Or.inr (Or.inr ⟨w', rfl, rfl⟩)

theorem persist_ok {command : Command}
    {p : PersistentOrderTracker} {w w' : World Byte} (next : Result α → Session → Session)
    (h : Prod.snd <$> operation = s.tracker.execute command) (hx : s.tracker.execute command w = (.ok p, w')) :
    ∃ value, s.persist operation next w = (some (next (.ok value) { s with tracker := p }), w') := by
  obtain ⟨value, p', w'', hx', he⟩ | ⟨error, w'', hx', -⟩ | ⟨w'', hx', -⟩ := persist_cases command next h w
  · rw [hx] at hx'
    cases hx'
    exact ⟨value, he⟩
  · rw [hx] at hx'
    cases hx'
  · rw [hx] at hx'
    cases hx'

theorem persist_effect (command : Command)
    {next : Result α → Session → Session} (h : Prod.snd <$> operation = s.tracker.execute command)
    (hnext : ∀ result s, (next result s).tracker = s.tracker ∧ s.Keeps (next result s)) :
    Effect s w [] (s.persist operation next w) := by
  obtain ⟨value, p, w', hx, he⟩ | ⟨error, w', hx, he⟩ | ⟨w', hx, he⟩ := persist_cases command next h w
  · rw [he]
    obtain ⟨ht, hk⟩ := hnext (.ok value) { s with tracker := p }
    exact .done hx ht ⟨hk.waiting, hk.traced⟩
  · rw [he]
    obtain ⟨ht, hk⟩ := hnext (.error error) s
    exact .failed hx ht hk
  · rw [he]
    exact .crashed hx

theorem finishSubmission_keeps (index : ℕ) (result : Result SubmissionResult) (s : Session) :
    s.Keeps (s.finishSubmission index result) :=
  .modify rfl (fun _ _ => ⟨rfl, fun ht => ht.of_stage rfl⟩)

theorem endSubmission_keeps
    (hi : s.submissions[index]? = some op) (hq : op.stage = .queued request deadline) (result : Result SubmissionResult) :
    s.Keeps (s.endSubmission index result) := by
  refine .modify rfl (fun other ho => ?_)
  rw [hi] at ho
  cases ho
  refine ⟨?_, fun _ _ _ hs => by cases hs⟩
  unfold SubmitOperation.pending
  rw [hq]

variable (client : Client)

theorem dispatch_waiting
    (hi : s.submissions[index]? = some op) (hq : op.stage = .queued request deadline) :
    ((s.dispatch client index request deadline).waiting.Perm s.waiting ∨
      (s.dispatch client index request deadline).waiting.Perm (request.orderHash :: s.waiting)) ∧
    (s.Traced → (s.dispatch client index request deadline).Traced) := by
  have hnone : op.pending = none := by
    unfold SubmitOperation.pending
    rw [hq]
  have hperm (stage : SubmitStage) := filterMap_modify_perm SubmitOperation.pending
    (fun op : SubmitOperation => { op with hash := request.orderHash, stage := stage }) hi
  simp only [hnone] at hperm
  constructor
  · unfold waiting dispatch
    cases client.createOrder request deadline with
    | error error => exact .inl (hperm (.turnedDown error))
    | ok mutation => exact .inr (hperm (.running mutation .initial))
  · intro ht
    refine ht.modify (fun other _ _ mutation operation hs => ?_)
    dsimp only at hs
    split at hs
    · cases hs
      exact ⟨[], rfl⟩
    · cases hs

theorem startSubmission_effect
    (hi : s.submissions[index]? = some op) (hq : op.stage = .queued request deadline) :
    Effect s w [] (s.startSubmission client index request deadline w) := by
  unfold startSubmission
  cases validateCreateOrder request with
  | error error => exact (endSubmission_keeps hi hq _).effect rfl
  | ok key =>
    dsimp only
    cases trackedShareAmount request with
    | error error => exact (endSubmission_keeps hi hq _).effect rfl
    | ok amount =>
      dsimp only
      obtain ⟨value, p, w', hx, he⟩ | ⟨error, w', hx, he⟩ | ⟨w', hx, he⟩ :=
        persist_cases (.beginSubmission request.orderHash amount) _ rfl w
      · rw [he]
        obtain ⟨hw | hw, ht⟩ := dispatch_waiting (s := { s with tracker := p }) client hi hq
        · exact .done hx rfl ⟨hw, ht⟩
        · exact .begun hx rfl hw ht
      · rw [he]
        exact .failed hx rfl (endSubmission_keeps hi hq _)
      · rw [he]
        exact .crashed hx

theorem startSubmission_ok {key f : Bytes} {amount : ExactDecimal}
    (index : ℕ) (hv : validateCreateOrder request = .ok key)
    (ha : trackedShareAmount request = .ok amount) (hu : s.tracker.journal.Usable)
    (hplan : s.tracker.tracker.plan (.beginSubmission request.orderHash amount) =
      .ok (some [submitted request.orderHash amount], s.tracker.tracker.store (submitted request.orderHash amount)))
    (he : Encodes s.tracker.journal.options.maximumRecordBytes (submitted request.orderHash amount)) :
    s.startSubmission client index request deadline ⟨some f, []⟩ =
      (some (dispatch client index request deadline
        { s with tracker := { s.tracker with
            tracker := s.tracker.tracker.store (submitted request.orderHash amount) } }),
        ⟨some (f ++ frame (submitted request.orderHash amount)), []⟩) := by
  have hx := PersistentOrderTracker.execute_ok (f := f) hu hplan (by simpa using he)
  rw [List.flatMap_singleton] at hx
  unfold startSubmission
  rw [hv, ha]
  obtain ⟨value, hp⟩ := persist_ok (s := s) _ rfl hx
  exact hp

theorem onResult_effect (hash : Bytes) (result : Result (MutationOutcome CreateOrderReceipt)) :
    Effect s w [] (s.onResult index hash result w) := by
  cases result with
  | error rejection =>
    rw [onResult]
    apply persist_effect (.markSubmissionRejected hash rejection) rfl
    exact fun _ s => ⟨rfl, finishSubmission_keeps index _ s⟩
  | ok outcome =>
    rw [onResult]
    apply persist_effect (.applyCreateOutcome hash outcome) rfl
    exact fun _ s => ⟨rfl, finishSubmission_keeps index _ s⟩

theorem Effect.congr (s₁ : Session) {handed : List Bytes} {result : Option Session × World Byte}
    (ht : s₁.tracker = s.tracker) (hs : s₁.submissions = s.submissions) (h : Effect s₁ w handed result) :
    Effect s w handed result := by
  have hk : s.Keeps s₁ := .of_submissions hs
  have hw : s₁.waiting = s.waiting := by rw [waiting, hs, waiting]
  cases h with
  | idle tracker waiting traced => exact .idle (tracker.trans ht) (hw ▸ waiting) (traced ∘ hk.traced)
  | done executed tracker keeps => exact .done (ht ▸ executed) tracker ⟨hw ▸ keeps.waiting, keeps.traced ∘ hk.traced⟩
  | begun executed tracker waiting traced => exact .begun (ht ▸ executed) tracker (hw ▸ waiting) (traced ∘ hk.traced)
  | failed executed tracker keeps =>
    exact .failed (ht ▸ executed) (tracker.trans ht) ⟨hw ▸ keeps.waiting, keeps.traced ∘ hk.traced⟩
  | crashed executed => exact .crashed (ht ▸ executed)
  | exit => exact .exit

theorem startReconciliation_effect (op : ReconcileOperation) : Effect s w [] (s.startReconciliation index op w) := by
  unfold startReconciliation
  split_ifs
  · exact idle_effect rfl rfl
  · refine Effect.congr { s.setReconciliation index { op with ownsActive := true } with reconciliationActive := true }
      rfl rfl ?_
    apply persist_effect (.requireReconciliation op.generation) rfl
    intro result s
    cases result with
    | error error => exact ⟨rfl, .of_submissions rfl⟩
    | ok quarantined => exact ⟨rfl, .of_submissions rfl⟩

theorem onPage_effect (op : ReconcileOperation) (result : Result OrdersPage) :
    Effect s w [] (s.onPage index op result w) := by
  unfold onPage
  cases result with
  | error error => exact idle_effect rfl rfl
  | ok page =>
    dsimp only
    split_ifs
    · exact idle_effect rfl rfl
    · exact idle_effect rfl rfl
    · exact idle_effect rfl rfl
    · apply persist_effect (.reconcile op.generation (op.orders ++ page.orders)) rfl
      exact fun _ s => ⟨rfl, .of_submissions rfl⟩

theorem resume_effect (index : ℕ) : Effect s w [] (s.react client (.resume index) w) := by
  rw [react]
  cases s.submissions[index]? with
  | none => exact idle_effect rfl rfl
  | some op =>
    dsimp only
    cases op.due with
    | none => exact idle_effect rfl rfl
    | some result => exact onResult_effect op.hash result

theorem start_effect (index : ℕ) : Effect s w [] (s.react client (.start index) w) := by
  rw [react]
  cases hi : s.submissions[index]? with
  | none => exact idle_effect rfl rfl
  | some op =>
    obtain ⟨hash, stage, result⟩ := op
    cases stage with
    | queued request deadline => exact startSubmission_effect client hi rfl
    | _ => exact idle_effect rfl rfl

theorem reconciliation_effect (index : ℕ) :
    Effect s w [] (s.react client (.startReconciliation index) w) := by
  rw [react]
  cases s.reconciliations[index]? with
  | none => exact idle_effect rfl rfl
  | some op =>
    dsimp only
    cases op.stage with
    | queued => exact startReconciliation_effect op
    | _ => exact idle_effect rfl rfl

theorem page_effect (index : ℕ) (result : Result OrdersPage) :
    Effect s w [] (s.react client (.page index result) w) := by
  rw [react]
  cases s.reconciliations[index]? with
  | none => exact idle_effect rfl rfl
  | some op =>
    dsimp only
    cases op.stage with
    | requested after => exact onPage_effect op result
    | _ => exact idle_effect rfl rfl

theorem trade_effect (x : System) (index : ℕ) (event : Event) (ht : s.Traced) :
    Effect s w ((x.handed s (.trade index event)).map Post.hash) (s.react client (.trade index event) w) := by
  refine .idle rfl ?_ (fun ht => ht.modify (fun op _ ho => ho.trade event))
  rw [System.handed]
  cases hi : s.submissions[index]? with
  | none =>
    unfold waiting
    rw [List.modify_eq_self (List.getElem?_eq_none_iff.mp hi)]
    exact .refl _
  | some op =>
    have hperm := filterMap_modify_perm SubmitOperation.pending (SubmitOperation.trade event) hi
    dsimp only
    obtain ⟨hp, hd⟩ | ⟨request, hp, hn, hd⟩ := SubmitOperation.trade_pending (ht op (List.mem_of_getElem? hi)) event
    · rw [hp, List.perm_append_left_iff] at hperm
      rw [hd]
      exact hperm
    · rw [hp, hn] at hperm
      rw [hd]
      exact hperm

theorem react_effect (s : Session) (x : System) (action : Action) (w : World Byte) (ht : s.Traced) :
    Effect s w ((x.handed s action).map Post.hash) (s.react client action w) := by
  cases action with
  | «open» journal options => exact idle_effect rfl rfl
  | submit request deadline =>
    refine Keeps.effect ⟨?_, fun ht => ?_⟩ rfl
    · unfold waiting
      rw [List.filterMap_append]
      exact .of_eq (List.append_nil _)
    · intro op ho
      rcases List.mem_append.mp ho with ho | ho
      · exact ht op ho
      · rw [List.mem_singleton.mp ho]
        exact fun _ _ hs => by cases hs
  | start index => exact start_effect client index
  | trade index event => exact trade_effect client x index event ht
  | resume index => exact resume_effect client index
  | walletEvent event =>
    change Effect s w [] (s.applyWalletEvent event w)
    unfold applyWalletEvent
    apply persist_effect (.applyWalletEvent event) rfl
    exact fun _ s => ⟨rfl, .of_submissions rfl⟩
  | bookRemoved hash =>
    change Effect s w [] (s.markBookRemoved hash w)
    unfold markBookRemoved
    apply persist_effect (.markBookRemoved hash) rfl
    exact fun _ s => ⟨rfl, .of_submissions rfl⟩
  | reconcile generation => exact idle_effect rfl rfl
  | startReconciliation index => exact reconciliation_effect client index
  | page index result => exact page_effect client index result
  | exit => exact .exit

theorem react_resume {client : Client} {result : Result (MutationOutcome CreateOrderReceipt)}
    (hi : s.submissions[index]? = some op) (hd : op.due = some result) :
    s.react client (.resume index) = s.onResult index op.hash result := by
  rw [react, hi]
  dsimp only
  rw [hd]

end Session

namespace System

theorem step_react {client : Client} {path : Bytes} {x : System} {s : Session} {s' : Option Session} {w : World Byte}
    {action : Action} {faults : List Fault} (hs : x.session = some s)
    (hr : s.react client action ⟨x.file, faults⟩ = (s', w)) :
    x.step client path ⟨action, faults⟩ = ⟨w.file, s', x.posts ++ x.handed s action⟩ := by
  obtain ⟨file, session, posts⟩ := x
  cases hs
  rw [step]
  dsimp only
  rw [hr]

theorem open_ok {journal : OrderJournal} {options : SessionOptions} {w w' : World Byte} {s : Session}
    (h : Session.open journal options w = (.ok s, w')) :
    ∃ p, PersistentOrderTracker.open journal w = (.ok p, w') ∧ s = ⟨p, options, false, [], [], []⟩ := by
  unfold Session.open at h
  split_ifs at h
  · cases h
  · cases h
  · rcases hp : PersistentOrderTracker.open journal w with ⟨p | error | _, w₁⟩
    · rw [bind_ok hp] at h
      cases h
      exact ⟨p, rfl, rfl⟩
    · rw [bind_error hp] at h
      cases h
    · rw [bind_crashed hp] at h
      cases h

theorem open_file (journal : OrderJournal) (options : SessionOptions) (w : World Byte) :
    (Session.open journal options w).2 = w ∨
      (Session.open journal options w).2 = (PersistentOrderTracker.open journal w).2 := by
  unfold Session.open
  split_ifs
  · exact Or.inl rfl
  · exact Or.inl rfl
  · right
    rcases hp : PersistentOrderTracker.open journal w with ⟨p | error | _, w₁⟩
    · rw [bind_ok hp]
      rfl
    · rw [bind_error hp]
    · rw [bind_crashed hp]

end System

end PredictFun.Execution
