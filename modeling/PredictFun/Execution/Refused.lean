import PredictFun.Execution.Quarantine

namespace PredictFun.Execution

open Base Storage Lifecycle Trading

namespace SubmitOperation

def halted (op : SubmitOperation) : Bool :=
  match op.stage with
  | .ended | .turnedDown _ => true
  | _ => false

theorem halted_posted {op : SubmitOperation} (h : op.halted = true) : op.posted = [] := by
  obtain ⟨hash, stage, result⟩ := op
  cases stage with
  | ended | turnedDown error => rfl
  | _ => cases h

theorem halted_trade {op : SubmitOperation} (h : op.halted = true) (event : Event) : op.trade event = op := by
  obtain ⟨hash, stage, result⟩ := op
  cases stage with
  | ended | turnedDown error => rfl
  | _ => cases h

end SubmitOperation

namespace Session

variable {s s' : Session} {w : World Byte} {index k : ℕ}

variable {op : SubmitOperation} {request : CreateOrderRequest} {key : Bytes} (client : Client)

theorem start_halted (hk : s.submissions[k]? = some op) (hh : op.halted = true) :
    ∀ s' ∈ (s.react client (.start index) w).1, ∃ op', s'.submissions[k]? = some op' ∧ op'.stage = op.stage := by
  intro s' hs
  rw [react] at hs
  cases hi : s.submissions[index]? with
  | none =>
    rw [hi] at hs
    cases hs
    exact ⟨op, hk, rfl⟩
  | some other =>
    rw [hi] at hs
    obtain ⟨hash, stage, result⟩ := other
    cases stage with
    | queued request deadline =>
      dsimp only at hs
      have hne : index ≠ k := by
        rintro rfl
        rw [hi] at hk
        cases hk
        cases hh
      have hmodify (f : SubmitOperation → SubmitOperation) : (s.submissions.modify index f)[k]? = some op := by
        rw [List.getElem?_modify_ne f _ hne, hk]
      obtain ⟨error, -, he⟩ | ⟨key, amount, -, -, ⟨p, w', -, he⟩ | ⟨error, w', -, he⟩ | ⟨w', -, he⟩⟩ :=
        startSubmission_cases client index request deadline s w
      · rw [he] at hs
        cases hs
        exact ⟨op, hmodify _, rfl⟩
      · rw [he] at hs
        cases hs
        exact ⟨op, hmodify _, rfl⟩
      · rw [he] at hs
        cases hs
        exact ⟨op, hmodify _, rfl⟩
      · rw [he] at hs
        cases hs
    | _ =>
      cases hs
      exact ⟨op, hk, rfl⟩

theorem resume_halted (hk : s.submissions[k]? = some op) :
    ∀ s' ∈ (s.react client (.resume index) w).1, ∃ op', s'.submissions[k]? = some op' ∧ op'.stage = op.stage := by
  intro s' hs
  have hfinish (answer : Result SubmissionResult) (p : PersistentOrderTracker) :
      ∃ op', (finishSubmission index answer { s with tracker := p }).submissions[k]? = some op' ∧ op'.stage = op.stage := by
    rw [finishSubmission]
    dsimp only
    rw [List.getElem?_modify, hk]
    exact ⟨_, rfl, by split_ifs <;> rfl⟩
  obtain he | ⟨other, result, -, -, he⟩ := resume_cases client index s w
  · rw [he] at hs
    cases hs
    exact ⟨op, hk, rfl⟩
  · rw [he] at hs
    obtain ⟨p, w', answer, -, he⟩ | ⟨error, w', -, he⟩ | ⟨w', -, he⟩ := onResult_cases index other.hash result s w
    · rw [he] at hs
      cases hs
      exact hfinish answer p
    · rw [he] at hs
      cases hs
      exact hfinish _ s.tracker
    · rw [he] at hs
      cases hs

theorem react_halted (action : Action) (hk : s.submissions[k]? = some op)
    (hh : op.halted = true) :
    ∀ s' ∈ (s.react client action w).1, ∃ op', s'.submissions[k]? = some op' ∧ op'.stage = op.stage := by
  intro s' hs
  cases ha : action.submits with
  | false => exact ⟨op, by rwa [react_submissions client ha s' hs], rfl⟩
  | true =>
    cases action with
    | submit request deadline =>
      cases hs
      refine ⟨op, ?_, rfl⟩
      rwa [List.getElem?_append_left (List.getElem?_eq_some_iff.mp hk).1]
    | start index => exact start_halted client hk hh s' hs
    | trade index event =>
      cases hs
      refine ⟨op, ?_, rfl⟩
      rw [List.getElem?_modify, hk]
      simp [SubmitOperation.halted_trade hh]
    | resume index => exact resume_halted client hk s' hs
    | _ => cases ha

/-- The session's own checks and the tracker let the request through. -/
def Journalable (s : Session) (request : CreateOrderRequest) : Prop :=
  ∃ key amount, validateCreateOrder request = .ok key ∧ trackedShareAmount request = .ok amount ∧ 0 < amount.value ∧
    s.tracker.find request.orderHash = none ∧
    Encodes s.tracker.journal.options.maximumRecordBytes (submitted request.orderHash amount)

theorem validHash_of_validate (h : validateCreateOrder request = .ok key) :
    validHash request.orderHash = true := by
  by_contra hn
  have hfalse : hash32 request.orderHash = false := Bool.eq_false_iff.mpr hn
  rw [validateCreateOrder, if_pos hfalse] at h
  cases h

theorem journalable_of_plan {amount : ExactDecimal} {records : List TrackedOrder}
    {next : OrderTracker} (hv : validateCreateOrder request = .ok key) (ha : trackedShareAmount request = .ok amount)
    (hp : s.tracker.tracker.plan (.beginSubmission request.orderHash amount) = .ok (some records, next)) :
    records = [submitted request.orderHash amount] ∧
      ((∀ order ∈ records, Encodes s.tracker.journal.options.maximumRecordBytes order) → s.Journalable request) := by
  rw [OrderTracker.plan, OrderTracker.beginSubmission] at hp
  split_ifs at hp with h₁ h₂ h₃
  · cases hp
  · cases hp
  · cases hp
  · cases hp
    refine ⟨rfl, fun he => ⟨key, amount, hv, ha, (positive_iff amount).mp h₂, ?_, he _ (List.mem_singleton_self _)⟩⟩
    exact Option.not_isSome_iff_eq_none.mp h₃

theorem begin_untraced {amount : ExactDecimal} (f : Bytes)
    (faults : List Fault) (hu : s.tracker.journal.Usable) (hv : validateCreateOrder request = .ok key)
    (ha : trackedShareAmount request = .ok amount) (hn : ¬s.Journalable request) :
    (s.tracker.execute (.beginSubmission request.orderHash amount) ⟨some f, faults⟩).2.file = some f ∧
      ∀ p, (s.tracker.execute (.beginSubmission request.orderHash amount) ⟨some f, faults⟩).1 ≠ .ok p := by
  obtain ⟨error, -, he⟩ | ⟨next, hp, -⟩ | ⟨records, next, o, w', hp, he, happends, hok⟩ :=
    PersistentOrderTracker.execute_cases hu (.beginSubmission request.orderHash amount) f faults
  · rw [he]
    exact ⟨rfl, fun p h => by cases h⟩
  · rw [OrderTracker.plan] at hp
    cases hb : s.tracker.tracker.beginSubmission request.orderHash amount with
    | error error =>
      rw [hb] at hp
      cases hp
    | ok value =>
      rw [hb] at hp
      cases hp
  · obtain ⟨rfl, hj⟩ := journalable_of_plan hv ha hp
    have hfail : ¬∀ order ∈ [submitted request.orderHash amount],
        Encodes s.tracker.journal.options.maximumRecordBytes order := fun h => hn (hj h)
    rw [he]
    refine ⟨?_, fun p h => hfail (hok p h).2⟩
    obtain ⟨part, hfile, hpart, -⟩ := happends.file
    rw [encodable_single (le_refl 1) hfail] at hpart
    rw [hfile, List.prefix_nil.mp hpart, List.append_nil]

theorem startSubmission_untraced (index : ℕ) (deadline : Option ℕ)
    (f : Bytes) (faults : List Fault) (hu : s.tracker.journal.Usable) (hn : ¬s.Journalable request) :
    (s.startSubmission client index request deadline ⟨some f, faults⟩).2.file = some f ∧
      ∀ s' ∈ (s.startSubmission client index request deadline ⟨some f, faults⟩).1,
        ∃ error, s' = s.endSubmission index (.error error) := by
  obtain ⟨error, -, he⟩ | ⟨key, amount, hv, ha, hrest⟩ :=
    startSubmission_cases client index request deadline s ⟨some f, faults⟩
  · rw [he]
    exact ⟨rfl, fun s' hs => ⟨error, (Option.some.inj hs).symm⟩⟩
  · obtain ⟨hfile, hno⟩ := begin_untraced f faults hu hv ha hn
    obtain ⟨p, w', hx, -⟩ | ⟨error, w', hx, he⟩ | ⟨w', hx, he⟩ := hrest
    · rw [hx] at hno
      exact absurd rfl (hno p)
    · rw [hx] at hfile
      rw [he]
      exact ⟨hfile, fun s' hs => ⟨error, (Option.some.inj hs).symm⟩⟩
    · rw [hx] at hfile
      rw [he]
      exact ⟨hfile, fun s' hs => by cases hs⟩

theorem startSubmission_halted {deadline : Option ℕ} {error : Error}
    (hi : s.submissions[index]? = some op) (hr : client.createOrder request deadline = .error error) :
    ∀ s' ∈ (s.startSubmission client index request deadline w).1,
      ∃ op', s'.submissions[index]? = some op' ∧ op'.halted = true := by
  have hat (g : SubmitOperation → SubmitOperation) : (s.submissions.modify index g)[index]? = some (g op) := by
    rw [List.getElem?_modify_eq, hi]
    rfl
  intro s' hs
  obtain ⟨failure, -, he⟩ | ⟨key, amount, -, -, ⟨p, w', -, he⟩ | ⟨failure, w', -, he⟩ | ⟨w', -, he⟩⟩ :=
    startSubmission_cases client index request deadline s w
  · rw [he] at hs
    cases hs
    exact ⟨_, hat _, rfl⟩
  · rw [he, dispatch] at hs
    cases hs
    exact ⟨_, hat _, by rw [hr]; rfl⟩
  · rw [he] at hs
    cases hs
    exact ⟨_, hat _, rfl⟩
  · rw [he] at hs
    cases hs

end Session

namespace System

variable {client : Client} {path : Bytes} {x : System}

theorem step_start {s : Session} {index : ℕ} {op : SubmitOperation} {request : CreateOrderRequest} {deadline : Option ℕ}
    (hi : s.submissions[index]? = some op) (hq : op.stage = .queued request deadline) (w : World Byte) :
    s.react client (.start index) w = s.startSubmission client index request deadline w := by
  obtain ⟨hash, stage, result⟩ := op
  cases hq
  rw [Session.react, hi]

theorem run_halted {k : ℕ} (later : List Input) (hl : ∀ input ∈ later, ¬Opens input) {stage : SubmitStage}
    (hx : ∀ s, x.session = some s → ∃ op, s.submissions[k]? = some op ∧ op.halted = true ∧ op.stage = stage) :
    ∀ s, (Runs.run (step client path) x later).session = some s →
      ∃ op, s.submissions[k]? = some op ∧ op.halted = true ∧ op.stage = stage := by
  refine Runs.run_invariant (step client path) (Q := fun _ input => ¬Opens input)
    (I := fun x => ∀ s, x.session = some s → ∃ op, s.submissions[k]? = some op ∧ op.halted = true ∧ op.stage = stage)
    (fun y input h hno s' hs => ?_) hx (Runs.along_of_forall (step client path) hl x)
  cases hy : y.session with
  | none =>
    rw [step_none hy (fun journal options ha => hno ⟨journal, options, ha⟩), hy] at hs
    cases hs
  | some s =>
    obtain ⟨op, hk, hh, hstage⟩ := h s hy
    rw [step_some hy] at hs
    obtain ⟨op', hk', hstage'⟩ := Session.react_halted client input.action hk hh s' hs
    refine ⟨op', hk', ?_, hstage'.trans hstage⟩
    rwa [SubmitOperation.halted, hstage', ← SubmitOperation.halted]

/-- A request that the client refuses is not posted, and it leaves no trace in the journal and the tracker exactly when the
session's checks or the tracker stop it. -/
theorem refused_request_untraced_iff (client : Client) (path : Bytes) (inputs : List Input) (s : Session) (index : ℕ)
    (op : SubmitOperation) (request : CreateOrderRequest) (deadline : Option ℕ) (error : Error)
    (hs : (Runs.run (step client path) fresh inputs).session = some s) (hi : s.submissions[index]? = some op)
    (hq : op.stage = .queued request deadline) (hr : client.createOrder request deadline = .error error) :
    (∀ faults later s', (∀ input ∈ later, ¬Opens input) →
      (Runs.run (step client path) fresh (inputs ++ ⟨.start index, faults⟩ :: later)).session = some s' →
      ∃ op', s'.submissions[index]? = some op' ∧ op'.posted = [] ∧ (¬s.Journalable request → op'.stage = .ended)) ∧
    ((∀ faults, (Runs.run (step client path) fresh (inputs ++ [⟨.start index, faults⟩])).file =
        (Runs.run (step client path) fresh inputs).file ∧
      ∀ s', (Runs.run (step client path) fresh (inputs ++ [⟨.start index, faults⟩])).session = some s' →
        s'.tracker = s.tracker) ↔ ¬s.Journalable request) := by
  obtain ⟨hu, f, hf⟩ := run_ready inputs s hs
  simp only [Runs.run_append, Runs.run_cons, Runs.run_nil]
  generalize Runs.run (step client path) fresh inputs = x at hs hf ⊢
  have hsession (faults : List Fault) : (x.step client path ⟨.start index, faults⟩).session =
      (s.startSubmission client index request deadline ⟨some f, faults⟩).1 := by
    rw [step_some hs, step_start hi hq, hf]
  have hfile (faults : List Fault) : (x.step client path ⟨.start index, faults⟩).file =
      (s.startSubmission client index request deadline ⟨some f, faults⟩).2.file := by
    rw [step_file hs, step_start hi hq, hf]
  refine ⟨fun faults later s' hl hs' => ?_, fun h hj => ?_, fun hn faults => ?_⟩
  · obtain ⟨stage, hstage, hstarted⟩ : ∃ stage : SubmitStage, (¬s.Journalable request → stage = .ended) ∧
        ∀ s₁, (x.step client path ⟨.start index, faults⟩).session = some s₁ →
          ∃ op₁, s₁.submissions[index]? = some op₁ ∧ op₁.halted = true ∧ op₁.stage = stage := by
      rw [hsession]
      cases hs₁ : (s.startSubmission client index request deadline ⟨some f, faults⟩).1 with
      | none => exact ⟨.ended, fun _ => rfl, fun s₁ h => by cases h⟩
      | some s₁ =>
        obtain ⟨op₁, hi₁, hh₁⟩ := Session.startSubmission_halted client hi hr s₁ hs₁
        refine ⟨op₁.stage, fun hn => ?_, fun s₂ h => ⟨op₁, Option.some.inj h ▸ hi₁, hh₁, rfl⟩⟩
        obtain ⟨failure, rfl⟩ := (Session.startSubmission_untraced client index deadline f faults hu hn).2 s₁ hs₁
        rw [Session.endSubmission, List.getElem?_modify_eq, hi] at hi₁
        cases hi₁
        rfl
    obtain ⟨op', hi', hh', hend⟩ := run_halted later hl hstarted s' hs'
    exact ⟨op', hi', SubmitOperation.halted_posted hh', fun hn => hend.trans (hstage hn)⟩
  · obtain ⟨key, amount, hv, ha, hpos, hnone, he⟩ := hj
    have hplan := OrderTracker.plan_beginSubmission (Session.validHash_of_validate hv) hpos hnone
    have hgrown := (hfile []).symm.trans ((h []).1.trans hf)
    rw [Session.startSubmission_ok client index hv ha hu hplan he] at hgrown
    have hlength := congrArg List.length (Option.some.inj hgrown)
    simp [frame] at hlength
  · obtain ⟨hsame, hend⟩ := Session.startSubmission_untraced client index deadline f faults hu hn
    refine ⟨by rw [hfile, hsame, hf], fun s' hs' => ?_⟩
    rw [hsession] at hs'
    obtain ⟨failure, rfl⟩ := hend s' hs'
    rfl

open OrderJournal (sampleJournal sampleJournal_usable)

def lateExpiration : Uint256 := ⟨ascii "9223372036854775808", by decide, by decide, by decide⟩

def lateRequest : CreateOrderRequest := { sampleRequest with order := { sampleRequest.order with expiration := lateExpiration } }

def unsignedRequest : CreateOrderRequest := { sampleRequest with order := { sampleRequest.order with signature := [] } }

def enqueued (request : CreateOrderRequest) : List Input := [⟨.open {} {}, []⟩, ⟨.submit request none, []⟩]

theorem run_enqueued (request : CreateOrderRequest) :
    Runs.run (step sampleClient sampleJournal.path) fresh (enqueued request) =
      ⟨some fileMagic, some { sampleSession with submissions := [⟨[], .queued request none, none⟩] }, []⟩ := by
  rw [enqueued, Runs.run_cons, step_open_sample]
  rfl

/-- The client cannot encode this request, but its order is in the journal and in the tracker. -/
theorem late_request_recorded : ∃ error s,
    sampleClient.createOrder lateRequest none = .error error ∧
    (Runs.run (step sampleClient sampleJournal.path) fresh (enqueued lateRequest ++ [⟨.start 0, []⟩])).file =
      some (fileMagic ++ frame (submitted sampleHash tenShares)) ∧
    (Runs.run (step sampleClient sampleJournal.path) fresh (enqueued lateRequest ++ [⟨.start 0, []⟩])).session = some s ∧
    s.tracker.find sampleHash = some (submitted sampleHash tenShares) := by
  obtain ⟨error, hcreate⟩ : ∃ error, sampleClient.createOrder lateRequest none = .error error := by
    have hv : validateCreateOrder lateRequest = .ok sampleHash := by decide
    have hx : Codec.expiration lateRequest.order.expiration =
        fail .numericOverflow "expiration exceeds the API int64 range" "order.expiration" := by decide
    unfold Client.createOrder Codec.TradingJson.encodeCreateOrderRequest
    rw [hv, hx]
    exact ⟨_, rfl⟩
  have hstart : Session.startSubmission sampleClient 0 lateRequest none
      { sampleSession with submissions := [⟨[], .queued lateRequest none, none⟩] } ⟨some fileMagic, []⟩ = _ :=
    Session.startSubmission_ok sampleClient 0 (show validateCreateOrder lateRequest = .ok sampleHash by decide)
      (show trackedShareAmount lateRequest = .ok tenShares by decide) sampleJournal_usable
      (OrderTracker.plan_beginSubmission (by decide) ((positive_iff tenShares).mp (by decide +kernel))
        (freshTracker_find _ _)) (by decide)
  rw [Runs.run_append, run_enqueued, Runs.run_cons, Runs.run_nil]
  rw [step_file rfl, step_some rfl, step_start rfl rfl, hstart]
  exact ⟨error, _, hcreate, rfl, rfl, (OrderTracker.find_store _ _ _).trans (if_pos rfl)⟩

theorem unsigned_request_untraced :
    (Runs.run (step sampleClient sampleJournal.path) fresh (enqueued unsignedRequest ++ [⟨.start 0, []⟩])).file =
      some fileMagic := by
  have hv : validateCreateOrder unsignedRequest =
      fail .invalidArgument "signature must contain at most 200 characters" "order.signature" := by decide +kernel
  obtain ⟨error, hcreate⟩ : ∃ error, sampleClient.createOrder unsignedRequest none = .error error := by
    unfold Client.createOrder
    rw [hv]
    exact ⟨_, rfl⟩
  have hrun := run_enqueued unsignedRequest
  have huntraced := (refused_request_untraced_iff sampleClient sampleJournal.path (enqueued unsignedRequest) _ 0 _
    unsignedRequest none error (by rw [hrun]) rfl rfl hcreate).2.mpr (by
      rintro ⟨key, amount, hok, -⟩
      rw [hv] at hok
      cases hok)
  rw [(huntraced []).1, hrun]

end System

end PredictFun.Execution
