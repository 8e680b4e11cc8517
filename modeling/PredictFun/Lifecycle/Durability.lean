import PredictFun.Lifecycle.Corruption
import PredictFun.Lifecycle.Faults
import PredictFun.Lifecycle.Reopen

namespace PredictFun.Lifecycle

open Base RecordLog Storage

def OrderJournal.Recoverable (journal : OrderJournal) (file : Option Bytes) (records : List TrackedOrder) : Prop :=
  ∃ good tail values, file.getD fileMagic = good ++ tail ∧ journal.Holds good values ∧ journal.Torn tail ∧
    values.map Frame.order = records ∧ ∀ order ∈ records, Restorable order

namespace OrderJournal

variable {journal : OrderJournal} {records : List TrackedOrder}

theorem recoverable_none : journal.Recoverable none [] :=
  ⟨fileMagic, [], [], (List.append_nil _).symm, holds_magic, Or.inl rfl, rfl, by simp⟩

theorem Recoverable.of_getD {file file' : Option Bytes} (h : journal.Recoverable file records)
    (he : file'.getD fileMagic = file.getD fileMagic) : journal.Recoverable file' records := by
  obtain ⟨good, tail, values, hf, rest⟩ := h
  exact ⟨good, tail, values, he.trans hf, rest⟩

theorem Recoverable.replay {file : Option Bytes} (h : journal.Recoverable file records) :
    ∃ good values replay t, journal.Holds good values ∧ values.map Frame.order = records ∧
      journal.replayBytes (file.getD fileMagic) = .ok replay ∧ kept replay (file.getD fileMagic) = good ∧
      recover replay = .ok t ∧ t.AllRestorable ∧
      ∀ hash, t.find hash = ((latestOrders records).lookup hash).map (quarantined (nextGeneration replay.orders)) := by
  obtain ⟨good, tail, values, hf, hh, ht, rfl, hr⟩ := h
  have hlatest : ∀ hash order, (latestOrders (values.map Frame.order)).lookup hash = some order → Restorable order :=
    fun hash order hl => hr order (mem_of_lookup_latest hl)
  obtain ⟨t, hrec⟩ := (recover_ok_iff _ good.length (decide (tail ≠ []))).mpr hlatest
  refine ⟨good, values, _, t, hh, rfl, by rw [hf]; exact hh.replay ht, by rw [hf, kept_replayed], hrec, ?_, recover_ok hrec⟩
  intro hash order ho
  rw [recover_ok hrec, Option.map_eq_some_iff] at ho
  obtain ⟨record, hl, rfl⟩ := ho
  exact quarantined_restorable.mpr (hlatest hash record hl)

theorem Recoverable.whole {file : Option Bytes} {values : List Frame} (h : journal.Recoverable file records)
    (hh : journal.Holds (file.getD fileMagic) values) :
    ∃ values', journal.Holds (file.getD fileMagic) values' ∧ values'.map Frame.order = records ∧
      ∀ order ∈ records, Restorable order := by
  obtain ⟨good, tail, values', hf, hh', ht, hv, hr⟩ := h
  have hwhole := hh.replay (Or.inl (rfl : ([] : Bytes) = []))
  rw [List.append_nil, hf, hh'.replay ht] at hwhole
  have hl : good.length = (good ++ tail).length := congrArg JournalReplay.validBytes (Except.ok.inj hwhole)
  have hnil : tail = [] := by
    rw [List.length_append] at hl
    exact List.length_eq_zero_iff.mp (by omega)
  rw [hf, hnil, List.append_nil]
  exact ⟨values', hh', hv, hr⟩

theorem torn_of_part (hmax : journal.options.maximumRecordBytes < 2 ^ 32) {orders : List TrackedOrder} {part : Bytes}
    (hp : part <+: orders.flatMap frame) (he : ∀ order ∈ orders, Encodes journal.options.maximumRecordBytes order) :
    ∃ done torn, done <+: orders ∧ part = done.flatMap frame ++ torn ∧ journal.Torn torn := by
  obtain ⟨done, rest, torn, rfl, rfl, ht⟩ := prefix_flatMap frame orders part hp
  exact ⟨done, torn, List.prefix_append _ _, rfl,
    torn_of_cut hmax (fun order ho => he order (List.mem_append_right _ ho)) ht⟩

theorem Holds.appends {α : Type} {good : Bytes} {values : List Frame} {orders : List TrackedOrder} {faults : List Fault}
    {o : Outcome Error α} {w : World Byte} (hmax : journal.options.maximumRecordBytes < 2 ^ 32)
    (hh : journal.Holds good values) (hv : ∀ value ∈ values, Restorable value.order)
    (ho : ∀ order ∈ orders, Restorable order)
    (ha : Appends good ((encodable journal.options.maximumRecordBytes orders).flatMap frame) faults o w)
    (hok : ∀ value, o = .ok value → ∀ order ∈ orders, Encodes journal.options.maximumRecordBytes order) :
    ∃ done, done <+: orders ∧ (∀ value, o = .ok value → done = orders) ∧
      journal.Recoverable w.file (values.map Frame.order ++ done) := by
  have hencodes : ∀ order ∈ encodable journal.options.maximumRecordBytes orders,
      Encodes journal.options.maximumRecordBytes order := fun order h => (mem_encodable h).2
  -- the records of the batch that are complete, and the part of the next one
  have hcut : ∃ done torn, done <+: orders ∧ (∀ value, o = .ok value → done = orders) ∧
      w.file = some (good ++ (done.flatMap frame ++ torn)) ∧ journal.Torn torn ∧
      ∀ order ∈ done, Encodes journal.options.maximumRecordBytes order := by
    have hstopped : (∀ value, o ≠ .ok value) → ∃ done torn, done <+: orders ∧ (∀ value, o = .ok value → done = orders) ∧
        w.file = some (good ++ (done.flatMap frame ++ torn)) ∧ journal.Torn torn ∧
        ∀ order ∈ done, Encodes journal.options.maximumRecordBytes order := by
      intro hstop
      obtain ⟨p, hfile, hp, -⟩ := ha.file
      obtain ⟨done, torn, hd, rfl, ht⟩ := torn_of_part hmax hp hencodes
      exact ⟨done, torn, hd.trans (List.takeWhile_prefix _), fun value h => absurd h (hstop value), hfile, ht,
        fun order h => hencodes order (hd.subset h)⟩
    cases o with
    | ok value =>
      have hall := hok value rfl
      refine ⟨orders, [], List.prefix_refl _, fun _ _ => rfl, ?_, Or.inl rfl, hall⟩
      rw [congrArg World.file ha.file_eq, encodable_of_all hall, List.append_nil]
    | error failure => exact hstopped (fun value h => by cases h)
    | crashed => exact hstopped (fun value h => by cases h)
  obtain ⟨done, torn, hd, hdone, hfile, ht, he⟩ := hcut
  obtain ⟨values', hh', hv'⟩ := hh.append done he (fun order h => small_of_encodes hmax (he order h))
  refine ⟨done, hd, hdone, good ++ done.flatMap frame, torn, values', ?_, hh', ht, hv', ?_⟩
  · rw [hfile, Option.getD_some, List.append_assoc]
  · intro order horder
    rcases List.mem_append.mp horder with h | h
    · obtain ⟨value, hvalue, rfl⟩ := List.mem_map.mp h
      exact hv value hvalue
    · exact ho order (hd.subset h)

end OrderJournal

structure Audited where
  host : Host
  ledger : List (TrackedOrder × Bool)

def Covered (records : List TrackedOrder) (ledger : List (TrackedOrder × Bool)) : Prop :=
  ∀ earlier order later, ledger = earlier ++ (order, true) :: later →
    ∃ record, (latestOrders records).lookup order.orderHash = some record ∧ (record = order ∨ record ∈ later.map Prod.fst)

theorem lookup_append_latest (records done : List TrackedOrder) (hash : Bytes) :
    (latestOrders (records ++ done)).lookup hash =
      ((done.filter (fun r => r.orderHash = hash)).getLast?).or ((latestOrders records).lookup hash) := by
  rw [latestOrders, KeyedMap.latest_append, KeyedMap.lookup_latest]
  rfl

theorem getLast_filter_hash (earlier later : List TrackedOrder) (order : TrackedOrder) :
    ∃ record, ((earlier ++ order :: later).filter (fun r => r.orderHash = order.orderHash)).getLast? = some record ∧
      (record = order ∨ record ∈ later) := by
  rw [List.filter_append, List.filter_cons_of_pos (by simp), List.getLast?_append_of_ne_nil _ (by simp),
    List.getLast?_cons]
  cases hl : (later.filter (fun r => r.orderHash = order.orderHash)).getLast? with
  | none => exact ⟨order, rfl, Or.inl rfl⟩
  | some record => exact ⟨record, rfl, Or.inr (List.mem_filter.mp (List.mem_of_getLast? hl)).1⟩

theorem Covered.append {records done batch : List TrackedOrder} {ledger : List (TrackedOrder × Bool)} {answer : Bool}
    (h : Covered records ledger) (hd : done <+: batch) (hall : answer = true → done = batch) :
    Covered (records ++ done) (ledger ++ batch.map (fun order => (order, answer))) := by
  intro earlier order later he
  rw [lookup_append_latest]
  have hnew : ∀ first, batch.map (fun order => (order, answer)) = first ++ (order, true) :: later →
      ∃ record, ((done.filter (fun r => r.orderHash = order.orderHash)).getLast?).or
        ((latestOrders records).lookup order.orderHash) = some record ∧ (record = order ∨ record ∈ later.map Prod.fst) := by
    intro first hb
    obtain ⟨b₁, b₂, rfl, -, h₂⟩ := List.map_eq_append_iff.mp hb
    obtain ⟨order', b₃, rfl, horder, rfl⟩ := List.map_eq_cons_iff.mp h₂
    cases horder
    obtain ⟨record, hr, hmem⟩ := getLast_filter_hash b₁ b₃ order
    rw [hall rfl, hr]
    exact ⟨record, rfl, hmem.imp_right (fun h => by simpa using h)⟩
  obtain ⟨first, rfl, hb⟩ | ⟨between, rfl, hb⟩ := List.append_eq_append_iff.mp he
  · exact hnew first hb
  · cases between with
    | nil => exact hnew [] hb.symm
    | cons entry between =>
      rw [List.cons_append] at hb
      obtain ⟨rfl, rfl⟩ := List.cons.inj hb
      obtain ⟨record, hl, hmem⟩ := h earlier order between rfl
      cases hf : (done.filter (fun r => r.orderHash = order.orderHash)).getLast? with
      | none =>
        refine ⟨record, by rw [Option.none_or, hl], hmem.imp_right (fun h => ?_)⟩
        rw [List.map_append]
        exact List.mem_append_left _ h
      | some newer =>
        refine ⟨newer, rfl, Or.inr ?_⟩
        have hin : newer ∈ batch := hd.subset (List.mem_filter.mp (List.mem_of_getLast? hf)).1
        simpa using Or.inr hin

namespace Host

def attempted (s : Host) (step : Step) : List TrackedOrder :=
  match step.act with
  | .open journal =>
    match PersistentOrderTracker.restored journal ⟨s.file, step.faults⟩ with
    | (.ok (_, t), _) => t.snapshot
    | _ => []
  | .execute command =>
    match s.tracker with
    | none => []
    | some p =>
      match p.tracker.plan command with
      | .ok (some records, _) => records
      | _ => []
  | .close => []

def succeeded {α : Type} : Outcome Error α → Bool
  | .ok _ => true
  | _ => false

def answered (s : Host) (step : Step) : Bool :=
  match step.act with
  | .open journal => succeeded (PersistentOrderTracker.open journal ⟨s.file, step.faults⟩).1
  | .execute command =>
    match s.tracker with
    | none => false
    | some p => succeeded (p.execute command ⟨s.file, step.faults⟩).1
  | .close => false

/-- The header of a new file is written whole, and an operation writes only sound reports and only behind complete
records. -/
def Careful (journal : OrderJournal) (s : Host) (step : Step) : Prop :=
  match step.act with
  | .open journal' => journal' = journal ∧ (s.file = none → ∀ n, journal.HeaderFault step.faults n → 8 ≤ n)
  | .execute command =>
    ∀ p, s.tracker = some p → s.attempted step ≠ [] →
      command.Sound p.tracker ∧ ∃ values, journal.Holds (s.file.getD fileMagic) values
  | .close => True

variable {s : Host} {p : PersistentOrderTracker}

theorem attempted_open {journal : OrderJournal} {faults : List Fault} {replay : JournalReplay}
    {t : OrderTracker} {w : World Byte}
    (h : PersistentOrderTracker.restored journal ⟨s.file, faults⟩ = (.ok (replay, t), w)) :
    s.attempted ⟨.open journal, faults⟩ = t.snapshot := by
  rw [attempted]
  simp only [h]

theorem attempted_open_stopped {journal : OrderJournal} {faults : List Fault}
    (h : ∀ r w, PersistentOrderTracker.restored journal ⟨s.file, faults⟩ ≠ (.ok r, w)) :
    s.attempted ⟨.open journal, faults⟩ = [] := by
  rw [attempted]
  dsimp only
  split
  next replay t w hr => exact absurd hr (h _ _)
  · rfl

theorem answered_open (s : Host) (journal : OrderJournal) (faults : List Fault) :
    s.answered ⟨.open journal, faults⟩ = succeeded (PersistentOrderTracker.open journal ⟨s.file, faults⟩).1 := rfl

theorem answered_execute (hp : s.tracker = some p) (command : Command)
    (faults : List Fault) :
    s.answered ⟨.execute command, faults⟩ = succeeded (p.execute command ⟨s.file, faults⟩).1 := by
  rw [answered]
  simp only [hp]

theorem attempted_execute (hp : s.tracker = some p) (command : Command)
    (faults : List Fault) :
    s.attempted ⟨.execute command, faults⟩ =
      match p.tracker.plan command with
      | .ok (some records, _) => records
      | _ => [] := by
  rw [attempted]
  simp only [hp]

theorem executed_file (p : PersistentOrderTracker) (result : Outcome Error PersistentOrderTracker × World Byte) :
    (executed p result).file = result.2.file := by
  rcases result with ⟨q | failure | _, w⟩ <;> rfl

theorem executed_tracker {p q : PersistentOrderTracker} {result : Outcome Error PersistentOrderTracker × World Byte}
    (h : (executed p result).tracker = some q) : result.1 = .ok q ∨ q = p := by
  rcases result with ⟨r | failure | _, w⟩
  · cases h
    exact Or.inl rfl
  · cases h
    exact Or.inr rfl
  · cases h

theorem opened_file (result : Outcome Error PersistentOrderTracker × World Byte) : (opened result).file = result.2.file := by
  rcases result with ⟨p | failure | _, w⟩ <;> rfl

theorem opened_tracker {result : Outcome Error PersistentOrderTracker × World Byte}
    (h : (opened result).tracker = some p) : result.1 = .ok p := by
  rcases result with ⟨q | failure | _, w⟩
  · cases h
    rfl
  · cases h
  · cases h

end Host

namespace Audited

def step (x : Audited) (step : Step) : Audited :=
  ⟨x.host.step step, x.ledger ++ (x.host.attempted step).map (fun order => (order, x.host.answered step))⟩

def Recovers (journal : OrderJournal) (x : Audited) : Prop :=
  ∃ p w, PersistentOrderTracker.open journal ⟨x.host.file, []⟩ = (.ok p, w) ∧
    ∀ earlier order later, x.ledger = earlier ++ (order, true) :: later →
      ∃ record generation, p.tracker.find order.orderHash = some (quarantined generation record) ∧
        (record = order ∨ record ∈ later.map Prod.fst)

def Durable (journal : OrderJournal) (x : Audited) : Prop :=
  (∃ records, journal.Recoverable x.host.file records ∧ Covered records x.ledger) ∧
    ∀ p, x.host.tracker = some p → p.journal = journal ∧ p.tracker.AllRestorable ∧ ∃ f, x.host.file = some f

variable {journal : OrderJournal}

theorem durable_fresh : Durable journal ⟨⟨none, none⟩, []⟩ := by
  refine ⟨⟨[], OrderJournal.recoverable_none, fun earlier order later h => ?_⟩, fun p hp => ?_⟩
  · simp at h
  · cases hp

variable {faults : List Fault} {x : Audited}

theorem Durable.recovers (hu : journal.Usable) (h : Durable journal x) : Recovers journal x := by
  obtain ⟨⟨records, ⟨good, tail, values, hf, hh, ht, rfl, hr⟩, hc⟩, -⟩ := h
  obtain ⟨t, hrec⟩ := (recover_ok_iff (values.map Frame.order) good.length (decide (tail ≠ []))).mpr
    (fun hash order hl => hr order (OrderJournal.mem_of_lookup_latest hl))
  refine ⟨_, _, open_recovered hu hf hh ht hrec, fun earlier order later he => ?_⟩
  obtain ⟨record, hl, hmem⟩ := hc earlier order later he
  exact ⟨record, _, by rw [recover_ok hrec, hl]; rfl, hmem⟩

theorem Durable.of_unchanged {x y : Audited} (h : Durable journal x) (hledger : y.ledger = x.ledger)
    (hfile : ∀ records, journal.Recoverable x.host.file records → journal.Recoverable y.host.file records)
    (htracker : ∀ p, y.host.tracker = some p → p.journal = journal ∧ p.tracker.AllRestorable ∧ ∃ f, y.host.file = some f) :
    Durable journal y := by
  obtain ⟨⟨records, hr, hc⟩, -⟩ := h
  exact ⟨⟨records, hfile records hr, by rwa [hledger]⟩, htracker⟩

theorem covered_appends {α : Type} {ledger : List (TrackedOrder × Bool)} {good : Bytes} {values : List Frame} {orders : List TrackedOrder}
    {o : Outcome Error α} {w : World Byte} (hmax : journal.options.maximumRecordBytes < 2 ^ 32)
    (hh : journal.Holds good values) (hv : ∀ value ∈ values, Restorable value.order)
    (hc : Covered (values.map Frame.order) ledger) (ho : ∀ order ∈ orders, Restorable order)
    (ha : Appends good ((encodable journal.options.maximumRecordBytes orders).flatMap frame) faults o w)
    (hok : ∀ value, o = .ok value → ∀ order ∈ orders, Encodes journal.options.maximumRecordBytes order) :
    ∃ records, journal.Recoverable w.file records ∧
      Covered records (ledger ++ orders.map (fun order => (order, Host.succeeded o))) := by
  obtain ⟨done, hd, hdone, hr⟩ := hh.appends hmax hv ho ha hok
  refine ⟨_, hr, hc.append hd (fun hs => ?_)⟩
  cases o with
  | ok value => exact hdone value rfl
  | error failure => cases hs
  | crashed => cases hs

theorem open_durable (hu : journal.Usable) (hmax : journal.options.maximumRecordBytes < 2 ^ 32)
    (h : Durable journal x)
    (hheader : x.host.file = none → ∀ n, journal.HeaderFault faults n → 8 ≤ n) :
    Durable journal (x.step ⟨.open journal, faults⟩) := by
  obtain ⟨o, file', faults', ho, hstop, hrest, hfile⟩ | ⟨replay, t, faults', o, w, hbytes, hrec, hrest, ho, ha, hok⟩ :=
    PersistentOrderTracker.open_cases hu x.host.file faults
  · have hhost : (x.step ⟨.open journal, faults⟩).host = Host.opened (o, ⟨file', faults'⟩) := by
      rw [← ho]
      rfl
    refine h.of_unchanged ?_ (fun records hr => ?_) (fun p hp => ?_)
    · rw [step, Host.attempted_open_stopped hrest, List.map_nil, List.append_nil]
    · rw [hhost, Host.opened_file]
      obtain rfl | ⟨hnone, rfl | ⟨n, hn, rfl⟩⟩ | ⟨replay, hbytes, rfl⟩ := hfile
      · exact hr
      · exact hr.of_getD (by rw [hnone]; rfl)
      · refine hr.of_getD ?_
        rw [hnone, Option.getD_some, Option.getD_none]
        exact List.take_of_length_le (hheader hnone n hn)
      · obtain ⟨good, values, replay', t, hh, rfl, hbytes', rfl, -⟩ := hr.replay
        rw [hbytes] at hbytes'
        cases hbytes'
        obtain ⟨-, -, -, -, -, -, -, hall⟩ := hr
        exact ⟨_, [], values, (List.append_nil _).symm, hh, Or.inl rfl, rfl, hall⟩
    · rw [hhost] at hp
      exact absurd (Host.opened_tracker hp) (hstop p)
  · obtain ⟨⟨records, hr, hc⟩, -⟩ := h
    obtain ⟨good, values, replay', t', hh, rfl, hbytes', rfl, hrec', hall, -⟩ := hr.replay
    rw [hbytes] at hbytes'
    cases hbytes'
    rw [hrec] at hrec'
    cases hrec'
    have hhost : (x.step ⟨.open journal, faults⟩).host = Host.opened (o, w) := by
      rw [← ho]
      rfl
    have hledger : (x.step ⟨.open journal, faults⟩).ledger =
        x.ledger ++ t.snapshot.map (fun order => (order, Host.succeeded o)) := by
      rw [step, Host.attempted_open hrest, Host.answered_open, ho]
    obtain ⟨-, -, -, -, -, -, -, hv⟩ := hr
    rw [Durable, hhost, hledger, Host.opened_file]
    refine ⟨covered_appends hmax hh (fun value hvalue => hv _ (List.mem_map_of_mem hvalue)) hc
      (fun order horder => hall _ order ((t.mem_snapshot order).mp horder)) ha (fun p hp => (hok p hp).2.2), fun p hp => ?_⟩
    obtain ⟨hj, rfl, -⟩ := hok p (Host.opened_tracker hp)
    obtain ⟨part, hfile, -⟩ := ha.file
    exact ⟨hj, hall, _, hfile⟩

theorem planned_restorable {t next : OrderTracker} {command : Command} {records : List TrackedOrder} (hr : t.AllRestorable)
    (hplan : t.plan command = .ok (some records, next)) (hs : records ≠ [] → command.Sound t) : next.AllRestorable := by
  obtain ⟨h, -⟩ | ⟨orders, h, hp⟩ := OrderTracker.plan_ok hplan
  · cases h
  cases h
  by_cases h0 : records = []
  · intro hash order ho
    rw [hp.kept hash (by simp [h0])] at ho
    exact hr hash order ho
  · rw [← OrderTracker.after_plan_ok hplan]
    exact OrderTracker.after_restorable hr (hs h0)

theorem execute_durable (hu : journal.Usable) (hmax : journal.options.maximumRecordBytes < 2 ^ 32)
    (h : Durable journal x) {command : Command}
    (hc : x.host.Careful journal ⟨.execute command, faults⟩) : Durable journal (x.step ⟨.execute command, faults⟩) := by
  obtain ⟨⟨file, tracker⟩, ledger⟩ := x
  cases tracker with
  | none =>
    refine h.of_unchanged ?_ (fun records hr => hr) (fun p hp => by cases hp)
    exact List.append_nil _
  | some p =>
    obtain ⟨rfl, hrestorable, f, hf⟩ := h.2 p rfl
    cases hf
    have hattempted := Host.attempted_execute (show (⟨some f, some p⟩ : Host).tracker = some p from rfl) command faults
    obtain ⟨error, hplan, hx⟩ | ⟨next, hplan, hx⟩ | ⟨records, next, o, w, hplan, hx, ha, hok⟩ :=
      PersistentOrderTracker.execute_cases hu command f faults
    · rw [hplan] at hattempted
      have hstep : step ⟨⟨some f, some p⟩, ledger⟩ ⟨.execute command, faults⟩ = ⟨⟨some f, some p⟩, ledger⟩ := by
        rw [step, hattempted, Host.step_execute, hx, List.map_nil, List.append_nil]
        rfl
      rwa [hstep]
    · rw [hplan] at hattempted
      have hstep : step ⟨⟨some f, some p⟩, ledger⟩ ⟨.execute command, faults⟩ = ⟨⟨some f, some p⟩, ledger⟩ := by
        rw [step, hattempted, Host.step_execute, hx, List.map_nil, List.append_nil]
        rfl
      rwa [hstep]
    · rw [hplan] at hattempted
      have hnext : next.AllRestorable := planned_restorable hrestorable hplan
        (fun h0 => (hc p rfl (by rw [hattempted]; exact h0)).1)
      have hstep : step ⟨⟨some f, some p⟩, ledger⟩ ⟨.execute command, faults⟩ =
          ⟨Host.executed p (o, w), ledger ++ records.map (fun order => (order, Host.succeeded o))⟩ := by
        rw [step, hattempted, Host.answered_execute rfl, Host.step_execute, hx]
      have hfile : ∃ part, w.file = some (f ++ part) := by
        obtain ⟨part, hfile, -⟩ := ha.file
        exact ⟨part, hfile⟩
      rw [hstep]
      refine ⟨?_, fun q hq => ?_⟩
      · rw [Host.executed_file]
        by_cases h0 : records = []
        · obtain ⟨⟨covered, hr, hcov⟩, -⟩ := h
          obtain ⟨part, hpart, hp, -⟩ := ha.file
          rw [h0, encodable, List.takeWhile_nil, List.flatMap_nil, List.prefix_nil] at hp
          rw [hp, List.append_nil] at hpart
          exact ⟨covered, by rwa [hpart], by rwa [h0, List.map_nil, List.append_nil]⟩
        · obtain ⟨-, values, hh⟩ := hc p rfl (by rw [hattempted]; exact h0)
          obtain ⟨⟨covered, hr, hcov⟩, -⟩ := h
          obtain ⟨values', hh', rfl, hv⟩ := hr.whole hh
          obtain ⟨hn, -⟩ | ⟨orders, horders, hplanned⟩ := OrderTracker.plan_ok hplan
          · cases hn
          cases horders
          exact covered_appends hmax hh'
            (fun value hvalue => hv _ (List.mem_map_of_mem hvalue)) hcov
            (fun order ho => hnext _ order (hplanned.stored order ho)) ha (fun p' hp => (hok p' hp).2)
      · rw [Host.executed_file]
        obtain ⟨part, hfile⟩ := hfile
        obtain hq | rfl := Host.executed_tracker hq
        · obtain ⟨rfl, -⟩ := hok q hq
          exact ⟨rfl, hnext, _, hfile⟩
        · exact ⟨rfl, hrestorable, _, hfile⟩

theorem step_durable (hu : journal.Usable) (hmax : journal.options.maximumRecordBytes < 2 ^ 32)
    (h : Durable journal x) {step : Step} (hc : x.host.Careful journal step) : Durable journal (x.step step) := by
  obtain ⟨act, faults⟩ := step
  cases act with
  | «open» journal' =>
    obtain ⟨rfl, hheader⟩ := hc
    exact open_durable hu hmax h hheader
  | execute command => exact execute_durable hu hmax h hc
  | close =>
    refine h.of_unchanged ?_ (fun records hr => hr) (fun p hp => by cases hp)
    exact List.append_nil _

open OrderJournal (sampleJournal sampleJournal_usable)

def crashedSubmission : List Step :=
  [⟨.open sampleJournal, []⟩, ⟨.execute (.beginSubmission sampleHash tenShares), []⟩,
    ⟨.execute (.beginSubmission otherHash tenShares), [.none, .crash 2]⟩]

theorem sample_fits : ∀ order ∈ [submitted sampleHash tenShares],
    Encodes sampleJournal.options.maximumRecordBytes order := fun order ho => (OrderJournal.sample_complete order ho).1

theorem plan_sample (hash : Bytes) (hv : validHash hash = true) (amount : ExactDecimal) (ha : 0 < amount.value) :
    (freshTracker sampleJournal).tracker.plan (.beginSubmission hash amount) =
      .ok (some [submitted hash amount], (freshTracker sampleJournal).tracker.store (submitted hash amount)) :=
  OrderTracker.plan_beginSubmission hv ha (freshTracker_find _ _)

/-- A crash three bytes into the file header: the file never opens again. -/
theorem torn_header_refused :
    ¬Recovers sampleJournal (Runs.run Audited.step ⟨⟨none, none⟩, []⟩ [⟨.open sampleJournal, [.none, .crash 3]⟩]) := by
  rintro ⟨p, w, ho, -⟩
  have hfile : (Runs.run Audited.step ⟨⟨none, none⟩, []⟩ [⟨.open sampleJournal, [.none, .crash 3]⟩]).host.file =
      some (fileMagic.take 3) := rfl
  have hbytes : ∃ error, sampleJournal.replayBytes ((some (fileMagic.take 3)).getD fileMagic) = .error error := ⟨_, rfl⟩
  obtain ⟨error, hbytes⟩ := hbytes
  rw [hfile, open_unreadable sampleJournal_usable hbytes] at ho
  cases ho

def longAmount : ExactDecimal := ⟨List.replicate 200 (byte '1'), by decide +kernel⟩

theorem longAmount_pos : 0 < longAmount.value := (positive_iff longAmount).mp (by decide +kernel)

/-- The write of the first record fails behind its header, the process goes on, and the second order is acknowledged. -/
def failedSubmission : List Step :=
  [⟨.open sampleJournal, []⟩, ⟨.execute (.beginSubmission sampleHash longAmount), [.none, .none, .fail 0]⟩,
    ⟨.execute (.beginSubmission otherHash tenShares), []⟩]

theorem append_stopped {order : TrackedOrder} (he : Encodes sampleJournal.options.maximumRecordBytes order) (f : Bytes) :
    ∃ error, sampleJournal.append [order] ⟨some f, [.none, .none, .fail 0]⟩ =
      (.error error, ⟨some (f ++ header (BitVec.ofNat 32 (payload order).length) (crc32 (payload order))), []⟩) := by
  have hencode : encode order sampleJournal.options.maximumRecordBytes = .ok (payload order) :=
    (encode_ok_iff order _ _).mpr ⟨he.1, he.2, rfl⟩
  have hrender : render sampleJournal.options.maximumRecordBytes order =
      .ok (header (BitVec.ofNat 32 (payload order).length) (crc32 (payload order)), payload order) := by
    rw [render, hencode]
    rfl
  refine ⟨storageError "cannot append lifecycle journal record" sampleJournal.path, ?_⟩
  rw [OrderJournal.append, bind_ok (show sampleJournal.initializeFile ⟨some f, [.none, .none, .fail 0]⟩ =
      (.ok (), ⟨some f, [.none, .none, .fail 0]⟩) from OrderJournal.initializeFile_some sampleJournal_usable _ _),
    bind_ok (show attempt _ ⟨some f, [.none, .none, .fail 0]⟩ = (.ok (), ⟨some f, [.none, .fail 0]⟩) from rfl)]
  refine bind_error ?_
  rw [writeEach, hrender]
  refine (bind_ok rfl).trans ((bind_ok rfl).trans (bind_error ?_))
  simp [write, operate]

theorem failed_append_host :
    Host.step (Host.step ⟨none, none⟩ ⟨.open sampleJournal, []⟩)
        ⟨.execute (.beginSubmission sampleHash longAmount), [.none, .none, .fail 0]⟩ =
      ⟨some (fileMagic ++ header (BitVec.ofNat 32 (payload (submitted sampleHash longAmount)).length)
        (crc32 (payload (submitted sampleHash longAmount)))), some (freshTracker sampleJournal)⟩ := by
  obtain ⟨error, ha⟩ := append_stopped
    (show Encodes _ (submitted sampleHash longAmount) from ⟨by decide +kernel, by decide +kernel⟩) fileMagic
  rw [Host.step_open_fresh sampleJournal_usable, Host.step_execute, PersistentOrderTracker.execute_eq,
    plan_sample sampleHash (by decide) longAmount longAmount_pos, PersistentOrderTracker.carryOut]
  have hj : (freshTracker sampleJournal).journal = sampleJournal := rfl
  rw [hj, bind_error ha]
  rfl

theorem failed_append_loses :
    ¬Recovers sampleJournal (Runs.run Audited.step ⟨⟨none, none⟩, []⟩ failedSubmission) := by
  have hfits : ∀ order ∈ [submitted otherHash tenShares], Encodes sampleJournal.options.maximumRecordBytes order := by
    intro order ho
    obtain rfl := List.mem_singleton.mp ho
    exact ⟨by decide, by decide⟩
  have hplan := plan_sample otherHash (by decide) tenShares Host.tenShares_pos
  -- the state before the last step
  obtain ⟨x, hx, hhost⟩ : ∃ x : Audited, Runs.run Audited.step ⟨⟨none, none⟩, []⟩ failedSubmission =
      x.step ⟨.execute (.beginSubmission otherHash tenShares), []⟩ ∧ x.host = _ := ⟨_, rfl, failed_append_host⟩
  have hledger : (x.step ⟨.execute (.beginSubmission otherHash tenShares), []⟩).ledger =
      x.ledger ++ [(submitted otherHash tenShares, true)] := by
    rw [step, hhost, Host.attempted_execute rfl, hplan, Host.answered_execute rfl,
      PersistentOrderTracker.execute_ok sampleJournal_usable hplan hfits]
    rfl
  have hfile : (x.step ⟨.execute (.beginSubmission otherHash tenShares), []⟩).host.file.getD fileMagic =
      fileMagic ++ (header (BitVec.ofNat 32 (payload (submitted sampleHash longAmount)).length)
        (crc32 (payload (submitted sampleHash longAmount))) ++ frame (submitted otherHash tenShares)) := by
    rw [step, hhost, Host.step_execute_ok sampleJournal_usable hplan hfits, Option.getD_some, List.flatMap_singleton,
      List.append_assoc]
  have htorn : sampleJournal.Torn (header (BitVec.ofNat 32 (payload (submitted sampleHash longAmount)).length)
      (crc32 (payload (submitted sampleHash longAmount))) ++ frame (submitted otherHash tenShares)) := by
    refine Or.inr ?_
    have hl : (payload (submitted sampleHash longAmount)).length = 307 := by decide +kernel
    have hm : sampleJournal.options.maximumRecordBytes = 65536 := rfl
    have hs : (frame (submitted otherHash tenShares)).length = 117 := by
      rw [frame_length]
      decide +kernel
    rw [nextFrame_header, hl, hm, hs]
    rfl
  rintro ⟨p, w, ho, hall⟩
  rw [hx] at ho hall
  obtain ⟨record, generation, hfind, -⟩ := hall x.ledger _ [] hledger
  obtain ⟨t, hrec⟩ := (recover_ok_iff [] fileMagic.length true).mpr (by simp [latestOrders, KeyedMap.latest])
  have hopen := open_recovered sampleJournal_usable hfile OrderJournal.holds_magic htorn hrec
  rw [hopen] at ho
  cases ho
  rw [recover_ok hrec] at hfind
  cases hfind

end Audited

end PredictFun.Lifecycle
