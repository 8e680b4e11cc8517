import PredictFun.Execution.Quarantine

namespace PredictFun.Execution

open Base Storage Lifecycle Trading

namespace ReconcileOperation

def running (op : ReconcileOperation) : Bool :=
  match op.stage with
  | .requested _ => true
  | _ => false

structure Walked (op : ReconcileOperation) (maximum : ℕ) (pages : List OrdersPage) : Prop where
  requests : op.requests = none :: pages.map OrdersPage.cursor
  bound : pages.length < maximum
  onward : ∀ page ∈ pages, page.cursor.getD [] ≠ []

structure Underway (op : ReconcileOperation) (maximum : ℕ) (pages : List OrdersPage) : Prop where
  walked : op.Walked maximum pages
  received : op.received = pages.map .ok
  orders : op.orders = pages.flatMap OrdersPage.orders
  count : op.pages = pages.length
  owns : op.ownsActive = true
  handler : op.handler = true
  applied : op.applied = []
  delivered : op.delivered = []

inductive Paged (maximum : ℕ) (op : ReconcileOperation) : Prop
  | queued (initial : op = .initial op.generation)
  | requested {pages : List OrdersPage} {after : Option Bytes} (stage : op.stage = .requested after)
      (underway : op.Underway maximum pages)
  | refused (stage : op.stage = .ended) (requests : op.requests = []) (received : op.received = [])
      (applied : op.applied = []) (delivered : op.delivered.length = 1)
  | stopped {pages : List OrdersPage} {answer : Result OrdersPage} (stage : op.stage = .ended)
      (walked : op.Walked maximum pages) (received : op.received = pages.map .ok ++ [answer]) (applied : op.applied = [])
      (delivered : op.delivered.length = 1)
  | completed {pages : List OrdersPage} {last : OrdersPage} (stage : op.stage = .ended)
      (walked : op.Walked maximum pages) (received : op.received = (pages ++ [last]).map .ok)
      (final : last.cursor.getD [] = []) (applied : op.applied = [(pages ++ [last]).flatMap OrdersPage.orders])
      (delivered : op.delivered.length = 1)

variable {maximum : ℕ} {op op' : ReconcileOperation} {pages : List OrdersPage}

theorem finish_delivered (result : Result ReconciliationResult) (hh : op.handler = true) (hd : op.delivered = []) :
    (op.finish result).delivered.length = 1 := by
  simp [finish, hh, hd]

theorem Paged.underway (h : op.Paged maximum) (hr : op.running = true) : ∃ pages, op.Underway maximum pages := by
  unfold running at hr
  cases h with
  | queued initial =>
    rw [initial] at hr
    cases hr
  | requested stage underway => exact ⟨_, underway⟩
  | refused stage | stopped stage | completed stage =>
    rw [stage] at hr
    cases hr

theorem Paged.initial_of_queued (h : op.Paged maximum) (hq : op.stage = .queued) : op = .initial op.generation := by
  cases h with
  | queued initial => exact initial
  | requested stage | refused stage | stopped stage | completed stage =>
    rw [hq] at stage
    cases stage

theorem Underway.stop {result : Result OrdersPage} (h : op.Underway maximum pages) (ha : op.Answered result op')
    (answer : Result ReconciliationResult) : (op'.finish answer).Paged maximum := by
  have hreceived : (op'.finish answer).received = pages.map .ok ++ [result] := by rw [← h.received, ← ha.received]; rfl
  exact .stopped rfl ⟨ha.requests.trans h.walked.requests, h.walked.bound, h.walked.onward⟩ hreceived
    (ha.applied.trans h.applied) (finish_delivered answer (ha.handler.trans h.handler) (ha.delivered.trans h.delivered))

theorem Underway.advance {page : OrdersPage} {cursor : Bytes} (h : op.Underway maximum pages)
    (hp : page.cursor = some cursor) (hc : cursor ≠ []) (hb : op.pages + 1 < maximum) :
    ((op.advanced page).request (some cursor)).Paged maximum := by
  suffices h' : ((op.advanced page).request (some cursor)).Underway maximum (pages ++ [page]) from .requested rfl h'
  refine ⟨⟨?_, ?_, ?_⟩, ?_, ?_, ?_, h.owns, h.handler, h.applied, h.delivered⟩
  · change op.requests ++ [some cursor] = _
    rw [h.walked.requests, List.map_append, List.map_singleton, hp]
    rfl
  · rw [List.length_append, List.length_singleton, ← h.count]
    exact hb
  · intro other ho
    rcases List.mem_append.mp ho with ho | ho
    · exact h.walked.onward other ho
    · rw [List.mem_singleton.mp ho, hp]
      exact hc
  · change op.received ++ [.ok page] = _
    rw [h.received, List.map_append, List.map_singleton]
  · change op.orders ++ page.orders = _
    rw [h.orders, List.flatMap_append, List.flatMap_singleton]
  · change op.pages + 1 = _
    rw [h.count, List.length_append, List.length_singleton]

theorem Underway.complete {page : OrdersPage} (h : op.Underway maximum pages) (hc : page.cursor.getD [] = [])
    (answer : Result ReconciliationResult) : ((op.completed page).finish answer).Paged maximum := by
  have hreceived : ((op.completed page).finish answer).received = (pages ++ [page]).map .ok := by
    change op.received ++ [.ok page] = _
    rw [h.received, List.map_append, List.map_singleton]
  refine .completed rfl ⟨h.walked.requests, h.walked.bound, h.walked.onward⟩ hreceived hc ?_
    (finish_delivered answer h.handler h.delivered)
  change op.applied ++ [op.orders ++ page.orders] = _
  rw [h.applied, h.orders, List.flatMap_append, List.flatMap_singleton]
  rfl

structure Orderly (maximum : ℕ) (op : ReconcileOperation) : Prop where
  bounded : op.requests.length ≤ maximum
  first : ∀ after, op.requests.head? = some after → after = none
  following : ∀ k after, op.requests[k + 1]? = some after →
    ∃ page, op.received[k]? = some (.ok page) ∧ after = page.cursor ∧ page.cursor.getD [] ≠ []
  reported : op.delivered.length ≤ 1
  answered : op.stage ≠ .queued → op.requests.length = op.received.length → op.delivered.length = 1
  applied : op.applied = [] ∨ ∃ pages last, op.received = (pages ++ [last]).map .ok ∧ last.cursor.getD [] = [] ∧
    op.applied = [(pages ++ [last]).flatMap OrdersPage.orders]

theorem Walked.following (h : op.Walked maximum pages) (hr : pages.map .ok <+: op.received) (k : ℕ) (after : Option Bytes)
    (hk : op.requests[k + 1]? = some after) :
    ∃ page, op.received[k]? = some (.ok page) ∧ after = page.cursor ∧ page.cursor.getD [] ≠ [] := by
  rw [h.requests, List.getElem?_cons_succ, List.getElem?_map] at hk
  obtain ⟨page, hp, rfl⟩ := Option.map_eq_some_iff.mp hk
  obtain ⟨rest, hrest⟩ := hr
  have hl : k < (pages.map (Except.ok : OrdersPage → Result OrdersPage)).length := by
    rw [List.length_map]
    exact (List.getElem?_eq_some_iff.mp hp).1
  refine ⟨page, ?_, rfl, h.onward page (List.mem_of_getElem? hp)⟩
  rw [← hrest, List.getElem?_append_left hl, List.getElem?_map, hp]
  rfl

theorem Walked.bounded (h : op.Walked maximum pages) : op.requests.length ≤ maximum := by
  rw [h.requests, List.length_cons, List.length_map]
  exact h.bound

theorem Walked.first (h : op.Walked maximum pages) (after : Option Bytes) (ha : op.requests.head? = some after) :
    after = none := by
  rw [h.requests] at ha
  cases ha
  rfl

theorem Paged.orderly (h : op.Paged maximum) : op.Orderly maximum := by
  cases h with
  | queued initial =>
    rw [initial]
    exact ⟨Nat.zero_le _, (fun _ h => by cases h), (fun _ _ h => by cases h), Nat.zero_le _, fun h => absurd rfl h, Or.inl rfl⟩
  | requested stage h =>
    refine ⟨h.walked.bounded, h.walked.first, h.walked.following (h.received ▸ List.prefix_refl _), ?_, fun _ hl => ?_,
      Or.inl h.applied⟩
    · simp [h.delivered]
    · simp [h.walked.requests, h.received] at hl
  | refused stage requests received applied delivered =>
    refine ⟨?_, ?_, ?_, delivered.le, fun _ _ => delivered, Or.inl applied⟩
    · simp [requests]
    · simp [requests]
    · simp [requests]
  | stopped stage walked received applied delivered =>
    exact ⟨walked.bounded, walked.first, walked.following (received ▸ List.prefix_append _ _), delivered.le,
      fun _ _ => delivered, Or.inl applied⟩
  | @completed pages last stage walked received final applied delivered =>
    refine ⟨walked.bounded, walked.first, walked.following ?_, delivered.le, fun _ _ => delivered,
      Or.inr ⟨_, _, received, final, applied⟩⟩
    rw [received, List.map_append]
    exact List.prefix_append _ _

end ReconcileOperation

namespace Session

structure Paged (s : Session) (holder : Option ℕ) : Prop where
  positive : 0 < s.options.maximumReconciliationPages
  operations : ∀ op ∈ s.reconciliations, op.Paged s.options.maximumReconciliationPages
  active : s.reconciliationActive = holder.isSome
  holds : ∀ i, (∃ op, s.reconciliations[i]? = some op ∧ op.running = true) ↔ holder = some i

variable {s s' : Session} {holder : Option ℕ} {index : ℕ} {op op' : ReconcileOperation}

theorem Paged.same (h : s.Paged holder) (hs : s.Same s') : s'.Paged holder := by
  obtain ⟨hr, ha, ho⟩ := hs
  exact ⟨ho ▸ h.positive, by rw [hr, ho]; exact h.operations, ha.trans h.active, by rw [hr]; exact h.holds⟩

theorem Paged.append (h : s.Paged holder) (generation : BitVec 64) :
    Paged { s with reconciliations := s.reconciliations ++ [.initial generation] } holder where
  positive := h.positive
  active := h.active
  operations := by
    intro op ho
    rcases List.mem_append.mp ho with ho | ho
    · exact h.operations op ho
    · rw [List.mem_singleton.mp ho]
      exact .queued rfl
  holds := by
    intro i
    rw [← h.holds i]
    constructor
    · rintro ⟨op, hi, hr⟩
      refine ⟨op, ?_, hr⟩
      rcases Nat.lt_or_ge i s.reconciliations.length with hl | hl
      · rwa [List.getElem?_append_left hl] at hi
      · rw [List.getElem?_append_right hl] at hi
        rw [List.mem_singleton.mp (List.mem_of_getElem? hi)] at hr
        cases hr
    · rintro ⟨op, hi, hr⟩
      exact ⟨op, by rwa [List.getElem?_append_left (List.getElem?_eq_some_iff.mp hi).1], hr⟩

theorem Paged.set (h : s.Paged holder) (hi : s.reconciliations[index]? = some op) {holder' : Option ℕ}
    (hr : s'.reconciliations = s.reconciliations.set index op') (ho : s'.options = s.options)
    (hp : op'.Paged s.options.maximumReconciliationPages) (ha : s'.reconciliationActive = holder'.isSome)
    (hself : op'.running = true ↔ holder' = some index)
    (hothers : ∀ i, i ≠ index → (holder' = some i ↔ holder = some i)) : s'.Paged holder' where
  positive := ho ▸ h.positive
  active := ha
  operations := by
    rw [hr, ho]
    intro other hm
    rcases List.mem_or_eq_of_mem_set hm with hm | rfl
    · exact h.operations other hm
    · exact hp
  holds := by
    intro i
    have hl : index < s.reconciliations.length := (List.getElem?_eq_some_iff.mp hi).1
    rw [hr]
    by_cases he : index = i
    · subst he
      simpa [hl] using hself
    · rw [List.getElem?_set_ne he, h.holds i, hothers i (Ne.symm he)]

theorem Paged.finish (h : s.Paged holder) (hi : s.reconciliations[index]? = some op) (hr : op.running = true)
    {result : Result ReconciliationResult} {p : PersistentOrderTracker} (ho : op'.ownsActive = true)
    (hp : (op'.finish result).Paged s.options.maximumReconciliationPages) :
    Paged (finishReconciliation index op' result { s with tracker := p }) none := by
  have hh : holder = some index := (h.holds index).mp ⟨op, hi, hr⟩
  refine h.set hi rfl rfl hp ?_ ?_ ?_
  · simp [finishReconciliation, ho]
  · simp [ReconcileOperation.finish, ReconcileOperation.running]
  · intro i hne
    simp [hh, Ne.symm hne]

theorem onPage_paged (h : s.Paged holder) (hi : s.reconciliations[index]? = some op) (hr : op.running = true)
    (result : Result OrdersPage) (w : World Byte) : ∀ s' ∈ (s.onPage index op result w).1, ∃ holder', s'.Paged holder' := by
  obtain ⟨pages, hu⟩ := (h.operations op (List.mem_of_getElem? hi)).underway hr
  have hh : holder = some index := (h.holds index).mp ⟨op, hi, hr⟩
  intro s' hs
  obtain ⟨op', error, ha, -, he⟩ | ⟨page, cursor, rfl, hp, hc, -, hb, he⟩ | ⟨page, rfl, hc, hx⟩ :=
    onPage_cases index op result s w
  · rw [he] at hs
    cases hs
    exact ⟨none, h.finish (p := s.tracker) hi hr (ha.ownsActive.trans hu.owns) (hu.stop ha _)⟩
  · rw [he] at hs
    cases hs
    refine ⟨some index, h.set hi rfl rfl (hu.advance hp hc hb) (h.active.trans (by rw [hh])) ?_ ?_⟩
    · simp [ReconcileOperation.request, ReconcileOperation.running]
    · intro i hne
      rw [hh]
  · obtain ⟨p, w', answer, -, he⟩ | ⟨error, w', -, he⟩ | ⟨w', -, he⟩ := hx
    · rw [he] at hs
      cases hs
      exact ⟨none, h.finish hi hr hu.owns (hu.complete hc answer)⟩
    · rw [he] at hs
      cases hs
      exact ⟨none, h.finish (p := s.tracker) hi hr hu.owns (hu.complete hc _)⟩
    · rw [he] at hs
      cases hs

theorem startReconciliation_paged (h : s.Paged holder) (hi : s.reconciliations[index]? = some op)
    (hq : op.stage = .queued) (w : World Byte) :
    ∀ s' ∈ (s.startReconciliation index op w).1, ∃ holder', s'.Paged holder' := by
  have hop := (h.operations op (List.mem_of_getElem? hi)).initial_of_queued hq
  generalize op.generation = generation at hop
  subst hop
  have hself : holder ≠ some index := by
    intro hh
    obtain ⟨op, ho, hr⟩ := (h.holds index).mpr hh
    rw [hi] at ho
    cases ho
    cases hr
  intro s' hs
  obtain ⟨ha, error, he⟩ | ⟨ha, hx⟩ := startReconciliation_cases index (.initial generation) s w
  · rw [he] at hs
    cases hs
    refine ⟨holder, h.set hi rfl rfl (.refused rfl rfl rfl rfl rfl) h.active ?_ (fun _ _ => Iff.rfl)⟩
    simpa [ReconcileOperation.finish, ReconcileOperation.running] using hself
  · have hnone : holder = none := by
      have := h.active
      rw [ha] at this
      simpa using this.symm
    obtain ⟨p, w', -, he⟩ | ⟨error, w', -, he⟩ | ⟨w', -, he⟩ := hx
    · rw [he] at hs
      cases hs
      have hu : ReconcileOperation.Underway (.request none { ReconcileOperation.initial generation with ownsActive := true })
          s.options.maximumReconciliationPages [] :=
        ⟨⟨rfl, h.positive, by simp⟩, rfl, rfl, rfl, rfl, rfl, rfl, rfl⟩
      refine ⟨some index, h.set hi rfl rfl (.requested rfl hu) rfl ?_ ?_⟩
      · simp [ReconcileOperation.request, ReconcileOperation.running]
      · intro i hne
        simp [hnone, Ne.symm hne]
    · rw [he] at hs
      cases hs
      refine ⟨none, h.set hi rfl rfl (.refused rfl rfl rfl rfl rfl) rfl ?_ ?_⟩
      · simp [ReconcileOperation.finish, ReconcileOperation.running]
      · simp [hnone]
    · rw [he] at hs
      cases hs

theorem react_paged (client : Client) (h : s.Paged holder) (action : Action) (w : World Byte) :
    ∀ s' ∈ (s.react client action w).1, ∃ holder', s'.Paged holder' := by
  intro s' hs
  cases hr : action.reconciles with
  | false => exact ⟨holder, h.same (react_same client hr s' hs)⟩
  | true =>
    cases action with
    | reconcile generation =>
      cases hs
      exact ⟨holder, h.append generation⟩
    | startReconciliation index =>
      rw [react] at hs
      cases hi : s.reconciliations[index]? with
      | none =>
        rw [hi] at hs
        cases hs
        exact ⟨holder, h⟩
      | some op =>
        rw [hi] at hs
        dsimp only at hs
        cases hq : op.stage with
        | queued =>
          rw [hq] at hs
          exact startReconciliation_paged h hi hq w s' hs
        | _ =>
          rw [hq] at hs
          cases hs
          exact ⟨holder, h⟩
    | page index result =>
      rw [react] at hs
      cases hi : s.reconciliations[index]? with
      | none =>
        rw [hi] at hs
        cases hs
        exact ⟨holder, h⟩
      | some op =>
        rw [hi] at hs
        dsimp only at hs
        cases hq : op.stage with
        | requested after =>
          rw [hq] at hs
          have hr : op.running = true := by rw [ReconcileOperation.running, hq]
          exact onPage_paged h hi hr result w s' hs
        | _ =>
          rw [hq] at hs
          cases hs
          exact ⟨holder, h⟩
    | _ => cases hr

theorem Paged.reconcile (h : s.Paged holder) {action : Action} {generation : BitVec 64} {orders : List OrderRecord}
    (hc : s.command action = some (.reconcile generation orders)) :
    ∃ index op page pages, action = .page index (.ok page) ∧ s.reconciliations[index]? = some op ∧ op.applied = [] ∧
      op.received = pages.map .ok ∧ page.cursor.getD [] = [] ∧ orders = (pages ++ [page]).flatMap OrdersPage.orders := by
  obtain ⟨_, _, _, _, _, _, -, -, -, -, -, hc⟩ | ⟨_, _, result, -, -, -, hc⟩ | ⟨_, -, hc⟩ | ⟨_, -, hc⟩ |
    ⟨_, _, -, -, -, -, hc⟩ | ⟨index, op, after, page, ha, hi, hq, hp, hc⟩ := command_cases hc
  · cases hc
  · cases result <;> cases hc
  · cases hc
  · cases hc
  · cases hc
  · cases hc
    have hr : op.running = true := by rw [ReconcileOperation.running, hq]
    obtain ⟨pages, hu⟩ := (h.operations op (List.mem_of_getElem? hi)).underway hr
    refine ⟨index, op, page, pages, ha, hi, hu.applied, hu.received, hp, ?_⟩
    rw [hu.orders, List.flatMap_append, List.flatMap_singleton]

theorem Paged.active_iff (h : s.Paged holder) :
    s.reconciliationActive = true ↔ ∃ op ∈ s.reconciliations, op.running = true ∧ op.ownsActive = true := by
  rw [h.active, Option.isSome_iff_exists]
  constructor
  · rintro ⟨index, hh⟩
    obtain ⟨op, hi, hr⟩ := (h.holds index).mpr hh
    obtain ⟨pages, hu⟩ := (h.operations op (List.mem_of_getElem? hi)).underway hr
    exact ⟨op, List.mem_of_getElem? hi, hr, hu.owns⟩
  · rintro ⟨op, ho, hr, -⟩
    obtain ⟨index, hi⟩ := List.mem_iff_getElem?.mp ho
    exact ⟨index, (h.holds index).mp ⟨op, hi, hr⟩⟩

theorem Paged.alone (h : s.Paged holder) {i j : ℕ} {a b : ReconcileOperation} (hi : s.reconciliations[i]? = some a)
    (hj : s.reconciliations[j]? = some b) (ha : a.running = true) (hb : b.running = true) : i = j :=
  Option.some_injective _ (((h.holds i).mp ⟨a, hi, ha⟩).symm.trans ((h.holds j).mp ⟨b, hj, hb⟩))

end Session

namespace System

variable (client : Client) (path : Bytes)

theorem open_positive {journal : OrderJournal} {options : SessionOptions} {w w' : World Byte} {s : Session}
    (h : Session.open journal options w = (.ok s, w')) : 0 < options.maximumReconciliationPages := by
  unfold Session.open at h
  split_ifs at h with hsize hmax
  · cases h
  · cases h
  · omega

theorem run_paged (inputs : List Input) (s : Session) (hs : (Runs.run (step client path) fresh inputs).session = some s) :
    ∃ holder, s.Paged holder := by
  refine run_keeps (P := fun s => ∃ holder, s.Paged holder) (fun journal options w w' s ho => ?_)
    (fun s action w ⟨holder, h⟩ => Session.react_paged client h action w) inputs s hs
  have hp := open_positive ho
  obtain ⟨p, -, rfl⟩ := open_ok ho
  exact ⟨none, hp, by simp, rfl, by simp⟩

theorem overlapping_refused {s : Session} {holder : Option ℕ} (h : s.Paged holder) {index : ℕ} {op : ReconcileOperation}
    (hi : s.reconciliations[index]? = some op) (hq : op.stage = .queued) (ha : s.reconciliationActive = true)
    (w : World Byte) :
    s.react client (.startReconciliation index) w = (some (s.setReconciliation index
      (op.finish (fail .invalidArgument "reconciliation is already active" ""))), w) := by
  have ho : op.ownsActive = false := by
    rw [(h.operations op (List.mem_of_getElem? hi)).initial_of_queued hq]
    rfl
  rw [Session.react, hi]
  dsimp only
  rw [hq]
  dsimp only
  rw [Session.startReconciliation, if_pos ha, Session.finishReconciliation, ho]
  rfl

/-- For all answers of the venue and all other callbacks in between: a reconciliation asks for a bounded number of pages,
each from where the page before it ends, reports once, and gives the tracker all pages or nothing. The flag is up exactly
while one operation waits for a page, and an order that was not terminal at the start stays quarantined until there is
news of it. -/
theorem reconciliation_all_or_nothing (inputs : List Input) (s : Session)
    (hs : (Runs.run (step client path) fresh inputs).session = some s) :
    (∀ op ∈ s.reconciliations, op.Orderly s.options.maximumReconciliationPages) ∧
    (∀ action generation orders, s.command action = some (.reconcile generation orders) →
      ∃ index op page pages, action = .page index (.ok page) ∧ s.reconciliations[index]? = some op ∧ op.applied = [] ∧
        op.received = pages.map .ok ∧ page.cursor.getD [] = [] ∧ orders = (pages ++ [page]).flatMap OrdersPage.orders) ∧
    (s.reconciliationActive = true ↔ ∃ op ∈ s.reconciliations, op.running = true ∧ op.ownsActive = true) ∧
    (∀ (i j : ℕ) (a b : ReconcileOperation), s.reconciliations[i]? = some a → s.reconciliations[j]? = some b →
      a.running = true → b.running = true → i = j) ∧
    (∀ index op w, s.reconciliations[index]? = some op → op.stage = .queued → s.reconciliationActive = true →
      s.react client (.startReconciliation index) w = (some (s.setReconciliation index
        (op.finish (fail .invalidArgument "reconciliation is already active" ""))), w)) ∧
    ∀ start generation later s' hash order,
      (Runs.run (step client path) fresh inputs).Carries start (.requireReconciliation generation) →
      s.tracker.find hash = some order → order.terminal = false →
      Runs.Along (step client path) (Undisturbed hash) (Runs.run (step client path) fresh (inputs ++ [start])) later →
      (Runs.run (step client path) fresh (inputs ++ [start] ++ later)).session = some s' →
      ∃ order', s'.tracker.find hash = some order' ∧ order'.reconciliationRequired = true := by
  obtain ⟨holder, h⟩ := run_paged client path inputs s hs
  refine ⟨fun op ho => (h.operations op ho).orderly, fun _ _ _ => h.reconcile, h.active_iff, fun _ _ _ _ => h.alone,
    fun _ _ w hi hq ha => overlapping_refused client h hi hq ha w, ?_⟩
  intro start generation later s' hash order hc hf hn hlater hs'
  have hheld : (Runs.run (step client path) fresh (inputs ++ [start])).Held hash := by
    rw [Runs.run_append]
    intro s₁ hs₁
    obtain ⟨s₀, hs₀, ht⟩ := hc.after hs₁
    rw [hs] at hs₀
    cases hs₀
    refine ⟨quarantined generation order, ?_, quarantined_of_nonterminal generation hn⟩
    change s₁.tracker.tracker.find hash = _
    rw [ht]
    exact OrderTracker.find_after_some (.requireReconciliation generation) hf
  rw [Runs.run_append] at hs'
  obtain ⟨order', ho, hq⟩ := run_held hheld hlater s' hs'
  exact ⟨order', ho, hq.required⟩

open OrderJournal (sampleJournal sampleJournal_usable)

def askedOperation : ReconcileOperation := ⟨2, .requested none, [], [], 0, true, true, [none], [], [], []⟩

def askingSession : Session where
  tracker := { freshTracker sampleJournal with
    tracker := ((freshTracker sampleJournal).tracker.store (submitted sampleHash tenShares)).requireReconciliation 2 }
  options := {}
  reconciliationActive := true
  submissions := [⟨sampleHash, .running (sampleMutation sampleClient) .initial, none⟩]
  reconciliations := [askedOperation]
  answers := []

theorem quarantine_executed (f : Bytes) :
    (begunSession (sampleMutation sampleClient)).tracker.execute (.requireReconciliation 2) ⟨some f, []⟩ =
      (.ok askingSession.tracker, ⟨some (f ++ askingSession.tracker.tracker.snapshot.flatMap frame), []⟩) :=
  PersistentOrderTracker.execute_ok sampleJournal_usable rfl (by decide +kernel)

def asking : List Input := begin ++ [⟨.reconcile 2, []⟩] ++ [⟨.startReconciliation 0, []⟩]

theorem run_asking : ∃ f, Runs.run (step sampleClient sampleJournal.path) fresh asking = ⟨some f, some askingSession, []⟩ := by
  have hx := quarantine_executed begunFile
  have hbegun : Runs.run (step sampleClient sampleJournal.path) fresh begin =
      ⟨some begunFile, some (begunSession (sampleMutation sampleClient)), []⟩ := run_begin rfl
  have hqueued : step sampleClient sampleJournal.path ⟨some begunFile, some (begunSession (sampleMutation sampleClient)), []⟩
      ⟨.reconcile 2, []⟩ = ⟨some begunFile, some { begunSession (sampleMutation sampleClient) with
        reconciliations := [.initial 2] }, []⟩ := rfl
  obtain ⟨ha, -⟩ | ⟨-, ⟨p, w, he, hstart⟩ | ⟨error, w, he, -⟩ | ⟨w, he, -⟩⟩ :=
    Session.startReconciliation_cases 0 (.initial 2)
      { begunSession (sampleMutation sampleClient) with reconciliations := [.initial 2] } ⟨some begunFile, []⟩
  · cases ha
  · have hreact : Session.react sampleClient
        { begunSession (sampleMutation sampleClient) with reconciliations := [.initial 2] } (.startReconciliation 0)
        ⟨some begunFile, []⟩ = _ := hstart
    cases hx.symm.trans he
    rw [asking, Runs.run_append, Runs.run_append, hbegun, Runs.run_cons, Runs.run_nil, Runs.run_cons, Runs.run_nil, hqueued,
      step_react rfl hreact]
    exact ⟨_, rfl⟩
  · cases hx.symm.trans he
  · cases hx.symm.trans he

theorem failed_page_keeps_required :
    ∃ s order, (Runs.run (step sampleClient sampleJournal.path) fresh
        (begin ++ [⟨.reconcile 2, []⟩] ++ [⟨.startReconciliation 0, []⟩] ++
          [⟨.page 0 (.error ⟨.readFailure, [], [], 0, 0⟩), []⟩])).session = some s ∧
      s.tracker.find sampleHash = some order ∧ order.reconciliationRequired = true := by
  obtain ⟨f, hasking⟩ := run_asking
  have hbegin : Runs.run (step sampleClient sampleJournal.path) fresh (begin ++ [⟨.reconcile 2, []⟩]) =
      ⟨some begunFile, some { begunSession (sampleMutation sampleClient) with reconciliations := [.initial 2] }, []⟩ := by
    rw [Runs.run_append, run_begin rfl]
    rfl
  obtain ⟨s, hend⟩ : ∃ s, (Runs.run (step sampleClient sampleJournal.path) fresh
      (asking ++ [⟨.page 0 (.error ⟨.readFailure, [], [], 0, 0⟩), []⟩])).session = some s := by
    rw [Runs.run_append, hasking]
    exact ⟨_, rfl⟩
  obtain ⟨order, ho, hr⟩ := (reconciliation_all_or_nothing sampleClient sampleJournal.path
    (begin ++ [⟨.reconcile 2, []⟩]) _ (by rw [hbegin])).2.2.2.2.2 ⟨.startReconciliation 0, []⟩ 2
      [⟨.page 0 (.error ⟨.readFailure, [], [], 0, 0⟩), []⟩] _ sampleHash (submitted sampleHash tenShares)
      (by
        rw [hbegin]
        exact ⟨_, _, _, rfl, rfl, quarantine_executed begunFile⟩)
      (by decide) rfl
      ⟨⟨(fun ⟨_, _, h⟩ => by cases h), fun command ⟨_, _, _, _, h, _⟩ => by cases h⟩, trivial⟩ hend
  exact ⟨_, order, hend, ho, hr⟩

end System

end PredictFun.Execution
