import PredictFun.Lifecycle.Faults

namespace PredictFun.Lifecycle

open Base RecordLog Storage

/-- The file is a header, complete records and a first part of another one; a missing file counts as a header. -/
structure Journaled (file : Option Bytes) (records : List TrackedOrder) (torn : Bytes) : Prop where
  file_eq : file.getD fileMagic = fileMagic ++ records.flatMap frame ++ torn
  fits : ∀ order ∈ records, FieldsFit order
  cut : torn = [] ∨ ∃ order, FieldsFit order ∧ torn <+: frame order ∧ torn.length < (frame order).length

structure Follows (file : Option Bytes) (records : List TrackedOrder) (p : PersistentOrderTracker) : Prop where
  present : file.isSome
  journaled : Journaled file records []
  usable : p.journal.Usable

variable {file : Option Bytes} {records orders : List TrackedOrder} {torn : Bytes} {faults : List Fault}

theorem journaled_none : Journaled none [] [] := ⟨rfl, by simp, Or.inl rfl⟩

theorem Journaled.of_getD (h : Journaled file records torn) {file' : Option Bytes}
    (he : file'.getD fileMagic = file.getD fileMagic) : Journaled file' records torn := ⟨he.trans h.file_eq, h.fits, h.cut⟩

theorem Journaled.extend {f : Bytes} (h : Journaled (some f) records []) (hfit : ∀ order ∈ orders, FieldsFit order)
    (hc : torn = [] ∨ ∃ order, FieldsFit order ∧ torn <+: frame order ∧ torn.length < (frame order).length) :
    Journaled (some (f ++ (orders.flatMap frame ++ torn))) (records ++ orders) torn where
  file_eq := by
    have hf : f = fileMagic ++ records.flatMap frame ++ [] := h.file_eq
    rw [Option.getD_some, hf, List.append_nil, List.flatMap_append]
    simp only [List.append_assoc]
  fits := by
    intro order ho
    rcases List.mem_append.mp ho with ho | ho
    · exact h.fits order ho
    · exact hfit order ho
  cut := hc

theorem Journaled.appends {α : Type} {f : Bytes} {o : Outcome Error α} {w : World Byte}
    (h : Journaled (some f) records []) (hfit : ∀ order ∈ orders, FieldsFit order)
    (ha : Appends f (orders.flatMap frame) faults o w) :
    ∃ done torn, done <+: orders ∧ Journaled w.file (records ++ done) torn ∧
      (NoFail faults → o ≠ .crashed → torn = []) ∧ (∀ value, o = .ok value → done = orders ∧ torn = []) := by
  obtain ⟨part, hfile, hp, hend⟩ := ha.file
  rcases hend with rfl | hstop
  · refine ⟨orders, [], List.prefix_refl _, ?_, fun _ _ => rfl, fun _ _ => ⟨rfl, rfl⟩⟩
    rw [hfile, ← List.append_nil (orders.flatMap frame)]
    exact h.extend hfit (Or.inl rfl)
  · obtain ⟨done, rest, torn, rfl, rfl, hcut⟩ := prefix_flatMap frame orders part hp
    refine ⟨done, torn, List.prefix_append _ _, ?_, ?_, ?_⟩
    · rw [hfile]
      refine h.extend (fun order ho => hfit order (List.mem_append_left _ ho)) (hcut.imp_right ?_)
      rintro ⟨order, tail, rfl, hc⟩
      exact ⟨order, hfit order (by simp), hc⟩
    · intro hn ho
      rcases hstop with hc | ⟨hf, -⟩
      · exact absurd hc ho
      · exact absurd hn hf
    · rintro value rfl
      rcases hstop with hc | ⟨-, _, hc⟩ <;> cases hc

theorem Journaled.replay (h : Journaled file records torn) {journal : OrderJournal} {replay : JournalReplay}
    (hr : journal.replayBytes (file.getD fileMagic) = .ok replay) :
    OrderJournal.kept replay (file.getD fileMagic) = fileMagic ++ records.flatMap frame ∧
      ∃ bytes cut, replay = replayed records bytes cut := by
  rw [h.file_eq] at hr ⊢
  obtain ⟨failure, hfail⟩ | ⟨values, hh, rfl, ht⟩ := OrderJournal.replay_or_corrupt journal records h.fits torn h.cut
  · rw [hfail] at hr
    cases hr
  · rw [hh.replay ht] at hr
    cases hr
    exact ⟨OrderJournal.kept_replayed _ _ _, _, _, rfl⟩

theorem recovered_isSome {bytes : ℕ} {cut : Bool} {t : OrderTracker} (h : recover (replayed records bytes cut) = .ok t)
    {order : TrackedOrder} (ho : order ∈ records) : (t.find order.orderHash).isSome := by
  rw [recover_ok h, Option.isSome_map, lookup_latestOrders, List.getLast?_isSome]
  exact List.ne_nil_of_mem (List.mem_filter.mpr ⟨ho, by simp⟩)

theorem OrderTracker.Planned.isSome {t next : OrderTracker} {hash : Bytes} (h : Planned t orders next)
    (hs : (t.find hash).isSome) : (next.find hash).isSome := by
  by_cases hk : ∀ order ∈ orders, order.orderHash ≠ hash
  · rwa [h.kept hash hk]
  · push Not at hk
    obtain ⟨order, ho, rfl⟩ := hk
    rw [h.stored order ho]
    rfl

namespace PersistentOrderTracker

variable {p : PersistentOrderTracker} {w : World Byte} {o : Outcome Error PersistentOrderTracker}

theorem execute_follows {command : Command} (h : Follows file records p) (hn : NoFail faults)
    (hx : p.execute command ⟨file, faults⟩ = (o, w)) :
    ∃ done torn, Journaled w.file (records ++ done) torn ∧
      (∀ p', o = .ok p' → Follows w.file (records ++ done) p' ∧
        (∀ hash, (p.tracker.find hash).isSome → (p'.tracker.find hash).isSome) ∧
        ∀ hash amount, command = .beginSubmission hash amount →
          p.tracker.find hash = none ∧ ∃ order ∈ done, order.orderHash = hash ∧ p'.tracker.find hash = some order) ∧
      ∀ error, o = .error error → Follows w.file (records ++ done) p := by
  obtain ⟨f, rfl⟩ := Option.isSome_iff_exists.mp h.present
  have hsame : Follows (some f) (records ++ []) p := by rwa [List.append_nil]
  obtain ⟨error, -, he⟩ | ⟨next, hplan, he⟩ | ⟨batch, next, o', w', hplan, he, ha, hok⟩ :=
    execute_cases h.usable command f faults
  · rw [he] at hx
    cases hx
    exact ⟨[], [], hsame.journaled, (fun _ ho => by cases ho), fun _ _ => hsame⟩
  · rw [he] at hx
    cases hx
    refine ⟨[], [], hsame.journaled, fun p' ho => ?_, fun _ ho => by cases ho⟩
    cases ho
    refine ⟨hsame, fun _ hs => hs, ?_⟩
    rintro hash amount rfl
    obtain ⟨r, -, hr⟩ := Result.ok_of_map hplan
    cases hr
  · rw [he] at hx
    cases hx
    obtain ⟨done, torn, -, hj, htorn, hdone⟩ := h.journaled.appends (fun order ho => (mem_encodable ho).2.1) ha
    have hpresent : w.file.isSome := by
      obtain ⟨part, hfile, -⟩ := ha.file
      rw [hfile]
      rfl
    refine ⟨done, torn, hj, fun p' ho => ?_, fun error ho => ?_⟩
    · obtain ⟨rfl, hencodes⟩ := hok p' ho
      obtain ⟨rfl, rfl⟩ := hdone _ ho
      rw [encodable_of_all hencodes] at hj ⊢
      obtain ⟨hnone, -⟩ | ⟨_, hsome, hplanned⟩ := OrderTracker.plan_ok hplan
      · cases hnone
      · cases hsome
        refine ⟨⟨hpresent, hj, h.usable⟩, fun _ => hplanned.isSome, ?_⟩
        rintro hash amount rfl
        obtain ⟨r, hb, hr⟩ := Result.ok_of_map hplan
        cases hr
        obtain ⟨-, -, hnew, hr, hstore⟩ := OrderTracker.beginSubmission_ok hb
        have hhash : r.1.orderHash = hash := by rw [hr]; rfl
        refine ⟨hnew, r.1, by simp, hhash, ?_⟩
        rw [← hhash]
        exact hplanned.stored r.1 (by simp)
    · rw [htorn hn (by rw [ho]; simp)] at hj
      exact ⟨hpresent, hj, h.usable⟩

variable {journal : OrderJournal}

theorem open_follows (h : Journaled file records torn)
    (hx : PersistentOrderTracker.open journal ⟨file, faults⟩ = (o, w)) :
    (∃ done torn, Journaled w.file (records ++ done) torn ∧
      ∀ p, o = .ok p → Follows w.file (records ++ done) p ∧
        ∀ order ∈ records, (p.tracker.find order.orderHash).isSome) ∨
    file = none ∧ (∃ n < 8, w.file = some (fileMagic.take n)) ∧ ∀ p, o ≠ .ok p := by
  -- what is left when nothing is written behind the records
  have hstopped (cut : Bytes) (hno : ∀ p, o ≠ .ok p) (hj : Journaled w.file records cut) :
      ∃ done torn, Journaled w.file (records ++ done) torn ∧ ∀ p, o = .ok p → Follows w.file (records ++ done) p ∧
        ∀ order ∈ records, (p.tracker.find order.orderHash).isSome :=
    ⟨[], cut, by rwa [List.append_nil], fun p ho => absurd ho (hno p)⟩
  by_cases hu : journal.Usable
  · obtain ⟨o', file', faults', he, hno, -, hfile⟩ | ⟨replay, t, faults', o', w', hr, hrec, -, he, ha, hok⟩ :=
      open_cases hu file faults
    · rw [he] at hx
      cases hx
      obtain rfl | ⟨rfl, rfl | ⟨n, -, rfl⟩⟩ | ⟨replay, hr, rfl⟩ := hfile
      · exact Or.inl (hstopped torn hno h)
      · exact Or.inl (hstopped torn hno (h.of_getD rfl))
      · by_cases hn : n < 8
        · exact Or.inr ⟨rfl, ⟨n, hn, rfl⟩, hno⟩
        · have hall : fileMagic.take n = fileMagic := List.take_of_length_le (not_lt.mp hn)
          exact Or.inl (hstopped torn hno (h.of_getD (by rw [hall]; rfl)))
      · refine Or.inl (hstopped [] hno ⟨?_, h.fits, Or.inl rfl⟩)
        rw [Option.getD_some, (h.replay hr).1, List.append_nil]
    · rw [he] at hx
      cases hx
      obtain ⟨hkept, bytes, cut, rfl⟩ := h.replay hr
      rw [hkept] at ha
      have hwhole : Journaled (some (fileMagic ++ records.flatMap frame)) records [] :=
        ⟨(List.append_nil _).symm, h.fits, Or.inl rfl⟩
      obtain ⟨done, torn', -, hj, -, hdone⟩ := hwhole.appends (fun order ho => (mem_encodable ho).2.1) ha
      refine Or.inl ⟨done, torn', hj, fun p ho => ?_⟩
      obtain ⟨rfl, rfl, -⟩ := hok p ho
      rw [(hdone _ ho).2] at hj
      obtain ⟨part, hfile, -⟩ := ha.file
      exact ⟨⟨by rw [hfile]; rfl, hj, hu⟩, fun order hm => recovered_isSome hrec hm⟩
  · obtain ⟨error, he⟩ := open_unusable hu ⟨file, faults⟩
    rw [he] at hx
    cases hx
    exact Or.inl (hstopped torn (fun _ ho => by cases ho) h)

theorem open_ready {p : PersistentOrderTracker}
    (h : PersistentOrderTracker.open journal ⟨file, faults⟩ = (.ok p, w)) :
    p.journal = journal ∧ journal.Usable ∧ ∃ f, w.file = some f := by
  by_cases hu : journal.Usable
  · obtain ⟨o', file', faults', he, hno, -⟩ | ⟨replay, t, faults', o', w', -, -, -, he, ha, hok⟩ := open_cases hu file faults
    · rw [he] at h
      cases h
      exact absurd rfl (hno p)
    · rw [he] at h
      cases h
      obtain ⟨part, hfile, -⟩ := ha.file
      exact ⟨(hok p rfl).1, hu, _, hfile⟩
  · obtain ⟨error, he⟩ := open_unusable hu ⟨file, faults⟩
    rw [he] at h
    cases h

theorem execute_present {command : Command} {f : Bytes} (hu : p.journal.Usable)
    (hx : p.execute command ⟨some f, faults⟩ = (o, w)) : ∃ f', w.file = some f' := by
  obtain ⟨error, -, he⟩ | ⟨next, -, he⟩ | ⟨batch, next, o', w', -, he, ha, -⟩ := execute_cases hu command f faults
  · rw [he] at hx
    cases hx
    exact ⟨f, rfl⟩
  · rw [he] at hx
    cases hx
    exact ⟨f, rfl⟩
  · rw [he] at hx
    cases hx
    obtain ⟨part, hfile, -⟩ := ha.file
    exact ⟨_, hfile⟩

theorem open_torn_header {n : ℕ} (hn : n < 8)
    (hx : PersistentOrderTracker.open journal ⟨some (fileMagic.take n), faults⟩ = (o, w)) :
    w.file = some (fileMagic.take n) ∧ ∀ p, o ≠ .ok p := by
  have hbad (replay : JournalReplay) : journal.replayBytes (fileMagic.take n) ≠ .ok replay := by
    intro hr
    obtain ⟨good, tail, values, he, ⟨body, rfl, -⟩, -⟩ := OrderJournal.replayBytes_ok hr
    have hl := congrArg List.length he
    have hm : fileMagic.length = 8 := rfl
    simp only [List.length_append, List.length_take, hm] at hl
    omega
  by_cases hu : journal.Usable
  · obtain ⟨o', file', faults', he, hno, -, hfile⟩ | ⟨replay, t, faults', o', w', hr, -⟩ :=
      open_cases hu (some (fileMagic.take n)) faults
    · rw [he] at hx
      cases hx
      obtain rfl | ⟨hnone, -⟩ | ⟨replay, hr, -⟩ := hfile
      · exact ⟨rfl, hno⟩
      · cases hnone
      · exact absurd hr (hbad replay)
    · exact absurd hr (hbad replay)
  · obtain ⟨error, he⟩ := open_unusable hu ⟨some (fileMagic.take n), faults⟩
    rw [he] at hx
    cases hx
    exact ⟨rfl, fun _ ho => by cases ho⟩

end PersistentOrderTracker

end PredictFun.Lifecycle
