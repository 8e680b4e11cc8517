import PredictFun.Lifecycle.Host

namespace PredictFun.Lifecycle

open Base RecordLog Storage

namespace OrderJournal

variable {journal : OrderJournal}

theorem sync_quiet : Quiet journal.sync := (attempt_quiet _).bind (fun _ => attempt_quiet _)

theorem createDirectories_quiet : Quiet journal.createDirectories := by
  unfold createDirectories
  split_ifs
  · exact attempt_quiet _
  · exact .pure ()

theorem flushAndClose_quiet : Quiet journal.flushAndClose := by
  unfold flushAndClose
  split_ifs
  · exact (attempt_quiet _).bind (fun _ => (attempt_quiet _).bind (fun _ => sync_quiet))
  · exact .pure ()

theorem initializeFile_some (hu : journal.Usable) (f : Bytes) (faults : List Fault) :
    journal.initializeFile ⟨some f, faults⟩ = journal.createDirectories ⟨some f, faults⟩ := by
  rw [initializeFile, if_neg hu.1, if_neg (by have := hu.2; omega)]
  obtain ⟨value, faults', hr, -⟩ | ⟨failure, faults', hr, -, -⟩ | ⟨faults', hr, -⟩ :=
    createDirectories_quiet.cases (⟨some f, faults⟩ : World Byte)
  · rw [bind_ok hr, hr]
    rfl
  · rw [bind_error hr, hr]
  · rw [bind_crashed hr, hr]

theorem append_eq (hu : journal.Usable) (orders : List TrackedOrder) (f : Bytes) (faults : List Fault) :
    journal.append orders ⟨some f, faults⟩ =
      (journal.createDirectories >>= fun _ => do
        attempt (storageError "cannot open lifecycle journal" journal.path)
        writeEach (render journal.options.maximumRecordBytes)
          (storageError "cannot append lifecycle journal record" journal.path) orders
        journal.flushAndClose) ⟨some f, faults⟩ := by
  change andThen _ _ _ = andThen _ _ _
  unfold andThen
  rw [initializeFile_some hu]

theorem append_appends (hu : journal.Usable) (orders : List TrackedOrder) (f : Bytes) (faults : List Fault) :
    Appends f ((encodable journal.options.maximumRecordBytes orders).flatMap frame) faults
        (journal.append orders ⟨some f, faults⟩).1 (journal.append orders ⟨some f, faults⟩).2 := by
  rw [← rendered_render, append_eq hu]
  refine createDirectories_quiet.bind_appends (fun _ faults₁ => ?_)
  refine (attempt_quiet _).bind_appends (fun _ faults₂ => ?_)
  exact (writeEach_appends _ _ orders f faults₂).bind_quiet (fun _ => flushAndClose_quiet)

variable {orders : List TrackedOrder}

theorem append_encodes {w : World Byte} (h : (journal.append orders w).1 = .ok ()) :
    ∀ order ∈ orders, Encodes journal.options.maximumRecordBytes order := by
  obtain ⟨_, w₁, -, h⟩ := bind_ok_inversion h
  obtain ⟨_, w₂, -, h⟩ := bind_ok_inversion h
  obtain ⟨_, w₃, hw, -⟩ := bind_ok_inversion h
  intro order ho
  obtain ⟨chunks, hr⟩ := writeEach_ok _ _ orders w₂ (by rw [hw]) order ho
  by_contra hn
  obtain ⟨error, he⟩ := render_error hn
  rw [he] at hr
  cases hr

theorem append_error (hu : journal.Usable) {f : Bytes} {faults : List Fault} {error : Error}
    (h : (journal.append orders ⟨some f, faults⟩).1 = .error error) (hn : NoFail faults) :
    ∃ order ∈ orders, ¬Encodes journal.options.maximumRecordBytes order := by
  by_contra hall
  push Not at hall
  have hsteady : Steady (journal.createDirectories >>= fun _ => do
      attempt (storageError "cannot open lifecycle journal" journal.path)
      writeEach (render journal.options.maximumRecordBytes)
        (storageError "cannot append lifecycle journal record" journal.path) orders
      journal.flushAndClose) := by
    refine createDirectories_quiet.steady.bind (fun _ => (attempt_quiet _).steady.bind (fun _ => ?_))
    refine Steady.bind (writeEach_steady _ _ orders (fun order ho => ?_)) (fun _ => flushAndClose_quiet.steady)
    obtain ⟨chunks, hr, -⟩ := render_ok (hall order ho)
    exact ⟨chunks, hr⟩
  rw [append_eq hu] at h
  exact (hsteady ⟨some f, faults⟩).2 error h hn

/-- How many operations come before the write of the header. -/
def headerOperation (journal : OrderJournal) : ℕ := if byte '/' ∈ journal.path then 2 else 1

def HeaderFault (journal : OrderJournal) (faults : List Fault) (n : ℕ) : Prop :=
  faults[journal.headerOperation]? = some (.fail n) ∨ faults[journal.headerOperation]? = some (.crash n)

variable (journal) in
theorem createFile_cases (faults : List Fault) :
    ∃ o file faults', journal.createFile ⟨none, faults⟩ = (o, ⟨file, faults'⟩) ∧ (o = .ok () → file = some fileMagic) ∧
      (file = none ∨ file = some fileMagic ∨
        ∃ n, (faults[1]? = some (.fail n) ∨ faults[1]? = some (.crash n)) ∧ file = some (fileMagic.take n)) := by
  have hquiet : Quiet (attempt (storageError "cannot initialize lifecycle journal" journal.path) >>= fun _ =>
      if journal.options.flushAfterAppend then journal.sync else pure ()) := by
    refine (attempt_quiet _).bind (fun _ => ?_)
    split_ifs
    · exact sync_quiet
    · exact .pure ()
  obtain h | ⟨n, h, -⟩ | ⟨n, h, -⟩ :=
    create_cases (storageError "cannot create lifecycle journal" journal.path) (⟨none, faults⟩ : World Byte)
  · rw [createFile, bind_ok h]
    obtain h | ⟨n, h, hn⟩ | ⟨n, h, hn⟩ :=
      write_cases (storageError "cannot initialize lifecycle journal" journal.path) [] fileMagic faults.tail
    · rw [bind_ok h]
      obtain ⟨_, faults', hr, -⟩ | ⟨failure, faults', hr, -, -⟩ | ⟨faults', hr, -⟩ := hquiet.cases ⟨some fileMagic, _⟩
      · exact ⟨_, _, _, hr, fun _ => rfl, Or.inr (Or.inl rfl)⟩
      · exact ⟨_, _, _, hr, fun _ => rfl, Or.inr (Or.inl rfl)⟩
      · exact ⟨_, _, _, hr, fun _ => rfl, Or.inr (Or.inl rfl)⟩
    · rw [bind_error h]
      exact ⟨_, _, _, rfl, (fun ho => by cases ho), Or.inr (Or.inr ⟨n, Or.inl (by rwa [List.head?_tail] at hn), rfl⟩)⟩
    · rw [bind_crashed h]
      exact ⟨_, _, _, rfl, (fun ho => by cases ho), Or.inr (Or.inr ⟨n, Or.inr (by rwa [List.head?_tail] at hn), rfl⟩)⟩
  · rw [createFile, bind_error h]
    exact ⟨_, _, _, rfl, (fun ho => by cases ho), Or.inl rfl⟩
  · rw [createFile, bind_crashed h]
    exact ⟨_, _, _, rfl, (fun ho => by cases ho), Or.inl rfl⟩

theorem initializeFile_cases (hu : journal.Usable) (file : Option Bytes) (faults : List Fault) :
    ∃ o file' faults', journal.initializeFile ⟨file, faults⟩ = (o, ⟨file', faults'⟩) ∧
      (o = .ok () → file' = some (file.getD fileMagic)) ∧
      (file' = file ∨ file = none ∧ (file' = some fileMagic ∨
        ∃ n, journal.HeaderFault faults n ∧ file' = some (fileMagic.take n))) := by
  cases file with
  | some f =>
    rw [initializeFile_some hu]
    obtain ⟨_, faults', hr, -⟩ | ⟨failure, faults', hr, -, -⟩ | ⟨faults', hr, -⟩ :=
      createDirectories_quiet.cases (⟨some f, faults⟩ : World Byte)
    · exact ⟨_, _, _, hr, fun _ => rfl, Or.inl rfl⟩
    · exact ⟨_, _, _, hr, fun _ => rfl, Or.inl rfl⟩
    · exact ⟨_, _, _, hr, fun _ => rfl, Or.inl rfl⟩
  | none =>
    have hcreate (faults' : List Fault) (hf : ∀ n, (faults'[1]? = some (.fail n) ∨ faults'[1]? = some (.crash n)) →
        journal.HeaderFault faults n) :
        ∃ o file' faults'', journal.createFile ⟨none, faults'⟩ = (o, ⟨file', faults''⟩) ∧
          (o = .ok () → file' = some fileMagic) ∧
          (file' = none ∨ none = (none : Option Bytes) ∧ (file' = some fileMagic ∨
            ∃ n, journal.HeaderFault faults n ∧ file' = some (fileMagic.take n))) := by
      obtain ⟨o, file', faults'', hr, hok, hfile⟩ := createFile_cases journal faults'
      refine ⟨o, file', faults'', hr, hok, hfile.imp_right (fun h => ⟨rfl, h.imp_right ?_⟩)⟩
      rintro ⟨n, hn, he⟩
      exact ⟨n, hf n hn, he⟩
    rw [initializeFile, if_neg hu.1, if_neg (by have := hu.2; omega), createDirectories]
    split_ifs with hslash
    · have hk : journal.headerOperation = 2 := if_pos hslash
      obtain h | ⟨n, h, -⟩ | ⟨n, h, -⟩ :=
        attempt_cases (storageError "cannot create journal directory" journal.path) (⟨none, faults⟩ : World Byte)
      · rw [bind_ok h]
        exact hcreate faults.tail (fun n hn => by rwa [HeaderFault, hk, ← List.getElem?_tail])
      · rw [bind_error h]
        exact ⟨_, _, _, rfl, (fun ho => by cases ho), Or.inl rfl⟩
      · rw [bind_crashed h]
        exact ⟨_, _, _, rfl, (fun ho => by cases ho), Or.inl rfl⟩
    · have hk : journal.headerOperation = 1 := if_neg hslash
      exact hcreate faults (fun n hn => by rwa [HeaderFault, hk])

variable (journal) in
theorem replay_apply_faults (file : Option Bytes) (faults : List Fault) :
    (∃ replay, file.isSome ∧ journal.replayBytes (file.getD fileMagic) = .ok replay ∧
      journal.replay ⟨file, faults⟩ = (.ok replay, ⟨file, faults⟩)) ∨
      ∃ error, journal.replay ⟨file, faults⟩ = (.error error, ⟨file, faults⟩) := by
  rw [OrderJournal.replay, bind_ok (contents_apply _)]
  cases file with
  | none => exact Or.inr ⟨_, rfl⟩
  | some f =>
    dsimp only
    cases hr : journal.replayBytes f with
    | ok replay => exact Or.inl ⟨replay, rfl, hr, rfl⟩
    | error error => exact Or.inr ⟨error, rfl⟩

def kept (replay : JournalReplay) (f : Bytes) : Bytes :=
  if replay.ignoredTruncatedTail then f.take replay.validBytes else f

theorem kept_replayed (good tail : Bytes) (records : List TrackedOrder) :
    kept (replayed records good.length (decide (tail ≠ []))) (good ++ tail) = good := by
  unfold kept replayed
  by_cases ht : tail = [] <;> simp [ht]

variable (journal) in
theorem repair_cases (replay : JournalReplay) (f : Bytes) (faults : List Fault) :
    (∃ faults', journal.repair replay ⟨some f, faults⟩ = (.ok (), ⟨some (kept replay f), faults'⟩) ∧ faults' <:+ faults) ∨
      ∃ o faults', journal.repair replay ⟨some f, faults⟩ = (o, ⟨some f, faults'⟩) ∧ o ≠ .ok () := by
  unfold repair kept
  split_ifs
  · obtain h | ⟨n, h, -⟩ | ⟨n, h, -⟩ :=
      resize_cases (storageError "cannot repair truncated lifecycle journal" journal.path) replay.validBytes
        (⟨some f, faults⟩ : World Byte)
    · exact Or.inl ⟨_, h, List.tail_suffix _⟩
    · exact Or.inr ⟨_, _, h, by simp⟩
    · exact Or.inr ⟨_, _, h, by simp⟩
  · exact Or.inl ⟨faults, rfl, List.suffix_refl _⟩

theorem appendQuarantined_appends (hu : journal.Usable) (orders : List TrackedOrder) (f : Bytes) (faults : List Fault) :
    Appends f ((encodable journal.options.maximumRecordBytes orders).flatMap frame) faults
      (journal.appendQuarantined orders ⟨some f, faults⟩).1 (journal.appendQuarantined orders ⟨some f, faults⟩).2 := by
  unfold appendQuarantined
  split_ifs with h
  · rw [List.isEmpty_iff.mp h]
    exact ⟨List.suffix_refl _, [], by simp, List.nil_prefix, Or.inl rfl⟩
  · exact append_appends hu orders f faults

theorem appendQuarantined_encodes {w : World Byte}
    (h : (journal.appendQuarantined orders w).1 = .ok ()) :
    ∀ order ∈ orders, Encodes journal.options.maximumRecordBytes order := by
  unfold appendQuarantined at h
  split_ifs at h with he
  · simp [List.isEmpty_iff.mp he]
  · exact append_encodes h

end OrderJournal

namespace PersistentOrderTracker

def restored (journal : OrderJournal) : Disk Byte Error (JournalReplay × OrderTracker) := do
  journal.initializeFile
  let replay ← journal.replay
  journal.repair replay
  let tracker ← ofResult (recover replay)
  return (replay, tracker)

theorem open_eq (journal : OrderJournal) :
    PersistentOrderTracker.open journal = restored journal >>= fun r => do
      journal.appendQuarantined r.2.snapshot
      return ⟨journal, r.2, r.1.recordsApplied, r.1.ignoredTruncatedTail⟩ := by
  simp only [PersistentOrderTracker.open, restored, bind_bind]
  rfl

variable {journal : OrderJournal}

theorem restored_cases (hu : journal.Usable) (file : Option Bytes) (faults : List Fault) :
    ∃ o file' faults', restored journal ⟨file, faults⟩ = (o, ⟨file', faults'⟩) ∧
      (∀ replay t, o = .ok (replay, t) → journal.replayBytes (file.getD fileMagic) = .ok replay ∧
        recover replay = .ok t ∧ file' = some (OrderJournal.kept replay (file.getD fileMagic))) ∧
      (file' = file ∨ file = none ∧ (file' = some fileMagic ∨
          ∃ n, journal.HeaderFault faults n ∧ file' = some (fileMagic.take n)) ∨
        ∃ replay, journal.replayBytes (file.getD fileMagic) = .ok replay ∧
          file' = some (OrderJournal.kept replay (file.getD fileMagic))) := by
  obtain ⟨o, f₁, faults₁, hi, hok, hfile⟩ := OrderJournal.initializeFile_cases hu file faults
  cases o with
  | error failure =>
    refine ⟨.error failure, f₁, faults₁, ?_, (fun _ _ h => by cases h), ?_⟩
    · rw [restored, bind_error hi]
    · exact hfile.imp_right Or.inl
  | crashed =>
    refine ⟨.crashed, f₁, faults₁, ?_, (fun _ _ h => by cases h), ?_⟩
    · rw [restored, bind_crashed hi]
    · exact hfile.imp_right Or.inl
  | ok u =>
    rw [hok rfl] at hi hfile
    rw [restored, bind_ok hi]
    obtain ⟨replay, -, hbytes, hr⟩ | ⟨error, hr⟩ :=
      OrderJournal.replay_apply_faults journal (some (file.getD fileMagic)) faults₁
    · rw [bind_ok hr]
      obtain ⟨faults₂, hp, -⟩ | ⟨o, faults₂, hp, ho⟩ :=
        OrderJournal.repair_cases journal replay (file.getD fileMagic) faults₁
      · rw [bind_ok hp]
        cases hrec : recover replay with
        | error failure =>
          refine ⟨_, _, _, bind_error rfl, (fun _ _ h => by cases h), Or.inr (Or.inr ⟨replay, hbytes, rfl⟩)⟩
        | ok t =>
          refine ⟨_, _, _, bind_ok rfl, fun _ _ h => ?_, Or.inr (Or.inr ⟨replay, hbytes, rfl⟩)⟩
          cases h
          exact ⟨hbytes, hrec, rfl⟩
      · cases o with
        | ok u => exact absurd rfl ho
        | error failure =>
          exact ⟨_, _, _, bind_error hp, (fun _ _ h => by cases h), hfile.imp_right Or.inl⟩
        | crashed => exact ⟨_, _, _, bind_crashed hp, (fun _ _ h => by cases h), hfile.imp_right Or.inl⟩
    · exact ⟨_, _, _, bind_error hr, (fun _ _ h => by cases h), hfile.imp_right Or.inl⟩

theorem open_cases (hu : journal.Usable) (file : Option Bytes) (faults : List Fault) :
    (∃ o file' faults', PersistentOrderTracker.open journal ⟨file, faults⟩ = (o, ⟨file', faults'⟩) ∧ (∀ p, o ≠ .ok p) ∧
      (∀ r w, restored journal ⟨file, faults⟩ ≠ (.ok r, w)) ∧
      (file' = file ∨ file = none ∧ (file' = some fileMagic ∨
          ∃ n, journal.HeaderFault faults n ∧ file' = some (fileMagic.take n)) ∨
        ∃ replay, journal.replayBytes (file.getD fileMagic) = .ok replay ∧
          file' = some (OrderJournal.kept replay (file.getD fileMagic)))) ∨
    ∃ replay t faults' o w, journal.replayBytes (file.getD fileMagic) = .ok replay ∧ recover replay = .ok t ∧
      restored journal ⟨file, faults⟩ = (.ok (replay, t), ⟨some (OrderJournal.kept replay (file.getD fileMagic)), faults'⟩) ∧
      PersistentOrderTracker.open journal ⟨file, faults⟩ = (o, w) ∧
      Appends (OrderJournal.kept replay (file.getD fileMagic))
        ((encodable journal.options.maximumRecordBytes t.snapshot).flatMap frame) faults' o w ∧
      ∀ p, o = .ok p → p.journal = journal ∧ p.tracker = t ∧
        ∀ order ∈ t.snapshot, Encodes journal.options.maximumRecordBytes order := by
  obtain ⟨o, file', faults', hr, hok, hfile⟩ := restored_cases hu file faults
  rw [open_eq]
  rcases o with ⟨replay, t⟩ | failure | _
  · obtain ⟨hbytes, hrec, rfl⟩ := hok replay t rfl
    refine Or.inr ⟨replay, t, faults', _, _, hbytes, hrec, hr, bind_ok hr, ?_, fun p hp => ?_⟩
    · exact (OrderJournal.appendQuarantined_appends hu t.snapshot _ faults').bind_quiet (fun _ => .pure _)
    · obtain ⟨_, w', ha, hp⟩ := bind_ok_inversion hp
      cases hp
      exact ⟨rfl, rfl, OrderJournal.appendQuarantined_encodes (by rw [ha])⟩
  · refine Or.inl ⟨_, _, _, bind_error hr, (fun p h => by cases h), (fun r w h => ?_), hfile⟩
    rw [hr] at h
    cases h
  · refine Or.inl ⟨_, _, _, bind_crashed hr, (fun p h => by cases h), (fun r w h => ?_), hfile⟩
    rw [hr] at h
    cases h

theorem execute_after {p p' : PersistentOrderTracker} {command : Command} {w w' : World Byte}
    (h : p.execute command w = (.ok p', w')) : p' = { p with tracker := p.tracker.after command } := by
  rw [execute_eq] at h
  rcases hplan : p.tracker.plan command with error | ⟨_ | records, next⟩
  · rw [hplan] at h
    cases h
  · rw [hplan] at h
    cases h
    obtain ⟨-, rfl⟩ | ⟨_, hn, -⟩ := OrderTracker.plan_ok hplan
    · rw [OrderTracker.after_plan_ok hplan]
    · cases hn
  · rw [hplan] at h
    have h1 : ((p.carryOut (.ok (some records, next))) w).1 = .ok p' := by rw [h]
    obtain ⟨_, _, -, hp⟩ := bind_ok_inversion h1
    cases hp
    rw [OrderTracker.after_plan_ok hplan]

theorem execute_cases {p : PersistentOrderTracker} (hu : p.journal.Usable) (command : Command) (f : Bytes)
    (faults : List Fault) :
    (∃ error, p.tracker.plan command = .error error ∧
      p.execute command ⟨some f, faults⟩ = (.error error, ⟨some f, faults⟩)) ∨
    (∃ next, p.tracker.plan command = .ok (none, next) ∧ p.execute command ⟨some f, faults⟩ = (.ok p, ⟨some f, faults⟩)) ∨
    ∃ records next o w, p.tracker.plan command = .ok (some records, next) ∧ p.execute command ⟨some f, faults⟩ = (o, w) ∧
      Appends f ((encodable p.journal.options.maximumRecordBytes records).flatMap frame) faults o w ∧
      ∀ p', o = .ok p' → p' = { p with tracker := next } ∧
        ∀ order ∈ records, Encodes p.journal.options.maximumRecordBytes order := by
  rw [execute_eq]
  rcases hplan : p.tracker.plan command with error | ⟨_ | records, next⟩
  · exact Or.inl ⟨error, rfl, rfl⟩
  · exact Or.inr (Or.inl ⟨next, rfl, rfl⟩)
  · refine Or.inr (Or.inr ⟨records, next, _, _, rfl, rfl, ?_, fun p' hp => ?_⟩)
    · exact (OrderJournal.append_appends hu records f faults).bind_quiet (fun _ => .pure _)
    · obtain ⟨_, w', ha, hp⟩ := bind_ok_inversion hp
      cases hp
      exact ⟨rfl, OrderJournal.append_encodes (by rw [ha])⟩

theorem execute_error {p : PersistentOrderTracker} (hu : p.journal.Usable) {command : Command} {f : Bytes}
    {faults : List Fault} {error : Error} {w : World Byte} (h : p.execute command ⟨some f, faults⟩ = (.error error, w))
    (hn : NoFail faults) :
    p.tracker.plan command = .error error ∨
      ∃ records next, p.tracker.plan command = .ok (some records, next) ∧
        ∃ order ∈ records, ¬Encodes p.journal.options.maximumRecordBytes order := by
  rw [execute_eq] at h
  rcases hplan : p.tracker.plan command with failure | ⟨_ | records, next⟩
  · rw [hplan] at h
    cases h
    exact Or.inl rfl
  · rw [hplan] at h
    cases h
  · rw [hplan] at h
    refine Or.inr ⟨records, next, rfl, ?_⟩
    rcases ha : p.journal.append records ⟨some f, faults⟩ with ⟨_ | failure | _, w'⟩
    · rw [carryOut, bind_ok ha] at h
      cases h
    · exact OrderJournal.append_error hu (by rw [ha]) hn
    · rw [carryOut, bind_crashed ha] at h
      cases h

end PersistentOrderTracker

end PredictFun.Lifecycle
