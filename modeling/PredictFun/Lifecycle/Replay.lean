import PredictFun.Lifecycle.Framing

namespace PredictFun.Lifecycle

open Base Wire RecordLog Storage

section

variable {maximum : ℕ} {path : Bytes}

theorem reads_length {body : Bytes} {values : List Frame} (h : Reads (frames maximum path) body values) :
    body.length = (values.map (fun value => 8 + value.size)).sum := by
  induction h with
  | nil => rfl
  | @cons used input value values head _ ih =>
    have hr : nextFrame maximum path (used ++ []) = .record value [] := head []
    obtain ⟨size, bytes, he, hb, -, -, hv⟩ := nextFrame_record hr
    rw [List.append_nil] at he
    rw [List.length_append, ih, List.map_cons, List.sum_cons, he]
    simp [hb, hv]

theorem foldl_apply (s : Replaying) (values : List Frame) :
    values.foldl Replaying.apply s =
      ⟨KeyedMap.latest TrackedOrder.orderHash s.latest (values.map Frame.order), s.recordsApplied + values.length,
        s.validBytes + (values.map (fun value => 8 + value.size)).sum, s.ignoredTruncatedTail⟩ := by
  induction values generalizing s with
  | nil => rfl
  | cons value values ih =>
    rw [List.foldl_cons, ih]
    simp only [Replaying.apply, KeyedMap.latest, List.map_cons, List.foldl_cons, List.length_cons, List.sum_cons,
      Replaying.mk.injEq, true_and, and_true]
    omega

def latestOrders (records : List TrackedOrder) : KeyedMap Bytes TrackedOrder :=
  KeyedMap.latest TrackedOrder.orderHash ∅ records

theorem latestOrders_keyed (records : List TrackedOrder) :
    KeyedMap.Keyed TrackedOrder.orderHash (latestOrders records) := (KeyedMap.Keyed.empty _).latest records

theorem lookup_latestOrders (records : List TrackedOrder) (hash : Bytes) :
    (latestOrders records).lookup hash = (records.filter (fun r => r.orderHash = hash)).getLast? := by
  rw [latestOrders, KeyedMap.lookup_latest]
  simp

def replayed (records : List TrackedOrder) (bytes : ℕ) (torn : Bool) : JournalReplay :=
  ⟨(latestOrders records).sortedValues TrackedOrder.orderHash, records.length, bytes, torn⟩

end

namespace OrderJournal

variable (journal : OrderJournal)

def Holds (file : Bytes) (values : List Frame) : Prop :=
  ∃ body, file = fileMagic ++ body ∧ Reads (frames journal.options.maximumRecordBytes journal.path) body values

def Torn (tail : Bytes) : Prop :=
  tail = [] ∨ nextFrame journal.options.maximumRecordBytes journal.path tail = .truncated

variable {journal}

theorem holds_magic : journal.Holds fileMagic [] := ⟨[], (List.append_nil _).symm, .nil⟩

variable {values : List Frame}

theorem Holds.append {file : Bytes} (h : journal.Holds file values) (orders : List TrackedOrder)
    (he : ∀ order ∈ orders, Encodes journal.options.maximumRecordBytes order)
    (hs : ∀ order ∈ orders, (payload order).length < 2 ^ 32) :
    ∃ values', journal.Holds (file ++ orders.flatMap frame) values' ∧
      values'.map Frame.order = values.map Frame.order ++ orders := by
  obtain ⟨body, rfl, hb⟩ := h
  have hr : Reads (frames journal.options.maximumRecordBytes journal.path) (orders.flatMap frame)
      (orders.map (fun order => ⟨order, (payload order).length⟩)) :=
    Reads.flatMap frame _ orders (fun order ho more => nextFrame_frame _ _ (he order ho) (hs order ho) more)
  refine ⟨_, ⟨body ++ orders.flatMap frame, by rw [List.append_assoc], hb.append hr⟩, ?_⟩
  rw [List.map_append, List.map_map]
  congr 1
  exact List.map_id _

theorem replayBytes_magic (body : Bytes) :
    journal.replayBytes (fileMagic ++ body) =
      (scan (frames journal.options.maximumRecordBytes journal.path) Replaying.apply Replaying.torn
        ⟨∅, 0, fileMagic.length, false⟩ body).map Replaying.finish := by
  rw [replayBytes, List.take_left' rfl, if_pos rfl, List.drop_left' rfl]

theorem Holds.scan_eq {body : Bytes}
    (h : Reads (frames journal.options.maximumRecordBytes journal.path) body values) :
    values.foldl Replaying.apply ⟨∅, 0, fileMagic.length, false⟩ =
      ⟨latestOrders (values.map Frame.order), values.length, (fileMagic ++ body).length, false⟩ := by
  rw [foldl_apply, List.length_append, reads_length h, Nat.zero_add]
  rfl

theorem Holds.replay {file tail : Bytes} (h : journal.Holds file values) (ht : journal.Torn tail) :
    journal.replayBytes (file ++ tail) = .ok (replayed (values.map Frame.order) file.length (decide (tail ≠ []))) := by
  obtain ⟨body, rfl, hb⟩ := h
  rw [List.append_assoc, replayBytes_magic, hb.scan_eq, scan_eq hb]
  rcases ht with rfl | ht
  · rw [scan_finished _ _ _ _ _ (nextFrame_nil journal.options.maximumRecordBytes journal.path)]
    simp [Except.map, Replaying.finish, replayed]
  · have hne : tail ≠ [] := by
      rintro rfl
      rw [nextFrame_nil] at ht
      cases ht
    rw [scan_truncated _ _ _ _ _ ht]
    simp [Except.map, Replaying.finish, Replaying.torn, replayed, hne]

theorem replayBytes_ok {file : Bytes} {replay : JournalReplay} (h : journal.replayBytes file = .ok replay) :
    ∃ good tail values, file = good ++ tail ∧ journal.Holds good values ∧ journal.Torn tail ∧
      replay = replayed (values.map Frame.order) good.length (decide (tail ≠ [])) := by
  by_cases hm : file.take fileMagic.length = fileMagic
  · obtain ⟨body, rfl⟩ : ∃ body, file = fileMagic ++ body := by
      have hsplit := List.take_append_drop fileMagic.length file
      rw [hm] at hsplit
      exact ⟨_, hsplit.symm⟩
    rw [replayBytes_magic] at h
    cases hs : scan (frames journal.options.maximumRecordBytes journal.path) Replaying.apply Replaying.torn
        ⟨∅, 0, fileMagic.length, false⟩ body with
    | error failure =>
      rw [hs] at h
      cases h
    | ok result =>
      obtain ⟨used, values, tail, rfl, hr, hend⟩ := scan_ok Replaying.apply Replaying.torn frames_local hs
      have hholds : journal.Holds (fileMagic ++ used) values := ⟨used, rfl, hr⟩
      have ht : journal.Torn tail := by
        rcases hend with ⟨hn, -⟩ | ⟨hn, -⟩
        · exact Or.inl (nextFrame_finished hn)
        · exact Or.inr hn
      refine ⟨fileMagic ++ used, tail, values, by rw [List.append_assoc], hholds, ht, ?_⟩
      have hr := hholds.replay ht
      rw [List.append_assoc, replayBytes_magic, h] at hr
      exact Except.ok.inj hr
  · rw [replayBytes, if_neg hm] at h
    cases h

variable (journal)

def Usable : Prop := journal.path ≠ [] ∧ 128 ≤ journal.options.maximumRecordBytes

def appendAll (journal : OrderJournal) : List (List TrackedOrder) → Disk Byte Error Unit
  | [] => pure ()
  | orders :: rest => do
    journal.append orders
    journal.appendAll rest

variable {journal}

@[simp] theorem createDirectories_nil (file : Option Bytes) :
    journal.createDirectories ⟨file, []⟩ = (.ok (), ⟨file, []⟩) := by
  unfold createDirectories
  split_ifs <;> rfl

@[simp] theorem flushAndClose_nil (file : Option Bytes) :
    journal.flushAndClose ⟨file, []⟩ = (.ok (), ⟨file, []⟩) := by
  unfold flushAndClose
  split_ifs <;> rfl

@[simp] theorem createFile_nil : journal.createFile ⟨none, []⟩ = (.ok (), ⟨some fileMagic, []⟩) := by
  rw [createFile, bind_ok (create_nil _ _), bind_ok (write_nil _ _ _), bind_ok (attempt_nil _ _)]
  split_ifs <;> rfl

theorem initializeFile_nil (hu : journal.Usable) (file : Option Bytes) :
    journal.initializeFile ⟨file, []⟩ = (.ok (), ⟨some (file.getD fileMagic), []⟩) := by
  rw [initializeFile, if_neg hu.1, if_neg (by have := hu.2; omega), bind_ok (createDirectories_nil file),
    bind_ok (contents_apply _)]
  cases file with
  | some f => rfl
  | none => exact createFile_nil

theorem append_nil (hu : journal.Usable) (file : Option Bytes) (orders : List TrackedOrder) :
    journal.append orders ⟨file, []⟩ =
      (verdict (render journal.options.maximumRecordBytes) orders,
        ⟨some (file.getD fileMagic ++ (encodable journal.options.maximumRecordBytes orders).flatMap frame), []⟩) := by
  have hw := writeEach_nil (render journal.options.maximumRecordBytes)
    (storageError "cannot append lifecycle journal record" journal.path) orders (file.getD fileMagic)
  rw [append, bind_ok (initializeFile_nil hu file), bind_ok (attempt_nil _ _), ← rendered_render]
  obtain ⟨-, hv⟩ | ⟨-, error, hv⟩ := verdict_render journal.options.maximumRecordBytes orders
  · rw [hv] at hw ⊢
    rw [bind_ok hw, flushAndClose_nil]
  · rw [hv] at hw ⊢
    rw [bind_error hw]

theorem appendAll_nil (hu : journal.Usable) (batches : List (List TrackedOrder))
    (he : ∀ order ∈ batches.flatten, Encodes journal.options.maximumRecordBytes order) (file : Bytes) :
    journal.appendAll batches ⟨some file, []⟩ = (.ok (), ⟨some (file ++ batches.flatten.flatMap frame), []⟩) := by
  induction batches generalizing file with
  | nil => simp [appendAll]
  | cons orders rest ih =>
    simp only [List.flatten_cons, List.mem_append] at he
    have ho : ∀ order ∈ orders, Encodes journal.options.maximumRecordBytes order := fun o h => he o (Or.inl h)
    have ha := append_nil hu (some file) orders
    obtain ⟨-, hv⟩ | ⟨hn, -⟩ := verdict_render journal.options.maximumRecordBytes orders
    · rw [hv, encodable_of_all ho] at ha
      rw [appendAll, bind_ok ha, Option.getD_some, ih (fun o h => he o (Or.inr h)), List.flatten_cons,
        List.flatMap_append, List.append_assoc]
    · exact absurd ho hn

theorem replay_apply (file : Bytes) (replay : JournalReplay) (h : journal.replayBytes file = .ok replay) :
    journal.replay ⟨some file, []⟩ = (.ok replay, ⟨some file, []⟩) := by
  rw [OrderJournal.replay, bind_ok (contents_apply _)]
  dsimp only
  rw [h]
  rfl

theorem reads_or_corrupt (journal : OrderJournal) (records : List TrackedOrder) (hf : ∀ order ∈ records, FieldsFit order)
    (torn : Bytes)
    (ht : torn = [] ∨ ∃ order, FieldsFit order ∧ torn <+: frame order ∧ torn.length < (frame order).length) :
    (∃ failure, ∀ s, scan (frames journal.options.maximumRecordBytes journal.path) Replaying.apply Replaying.torn s
        (records.flatMap frame ++ torn) = .error failure) ∨
      ∃ values, Reads (frames journal.options.maximumRecordBytes journal.path) (records.flatMap frame) values ∧
        values.map Frame.order = records ∧ journal.Torn torn := by
  induction records with
  | nil =>
    cases hn : nextFrame journal.options.maximumRecordBytes journal.path torn with
    | finished => exact Or.inr ⟨[], .nil, rfl, Or.inl (nextFrame_finished hn)⟩
    | truncated => exact Or.inr ⟨[], .nil, rfl, Or.inr hn⟩
    | corrupt failure => exact Or.inl ⟨failure, fun s => scan_corrupt _ _ _ s _ failure hn⟩
    | record value rest =>
      rcases ht with rfl | ⟨order, ho, hp, hl⟩
      · rw [nextFrame_nil] at hn
        cases hn
      · exact absurd hn (nextFrame_torn_or_corrupt ho hp hl value rest)
  | cons order records ih =>
    simp only [List.mem_cons, forall_eq_or_imp] at hf
    rw [List.flatMap_cons, List.append_assoc]
    rcases nextFrame_frame_or_corrupt journal.options.maximumRecordBytes journal.path hf.1
      (records.flatMap frame ++ torn) with ⟨he, hs⟩ | ⟨failure, hc⟩
    · have hframe := nextFrame_frame journal.options.maximumRecordBytes journal.path he hs
      rcases ih hf.2 with ⟨failure, hfail⟩ | ⟨values, hr, hv, htorn⟩
      · refine Or.inl ⟨failure, fun s => ?_⟩
        rw [scan_record _ _ _ s _ _ _ (hframe _)]
        exact hfail _
      · exact Or.inr ⟨_, .cons hframe hr, by rw [List.map_cons, hv], htorn⟩
    · exact Or.inl ⟨failure, fun s => scan_corrupt _ _ _ s _ failure hc⟩

theorem replay_or_corrupt (journal : OrderJournal) (records : List TrackedOrder) (hf : ∀ order ∈ records, FieldsFit order)
    (torn : Bytes)
    (ht : torn = [] ∨ ∃ order, FieldsFit order ∧ torn <+: frame order ∧ torn.length < (frame order).length) :
    (∃ failure, journal.replayBytes (fileMagic ++ records.flatMap frame ++ torn) = .error failure) ∨
      ∃ values, journal.Holds (fileMagic ++ records.flatMap frame) values ∧ values.map Frame.order = records ∧
        journal.Torn torn := by
  rcases reads_or_corrupt journal records hf torn ht with ⟨failure, hfail⟩ | ⟨values, hr, hv, htorn⟩
  · left
    rw [List.append_assoc, replayBytes_magic, hfail]
    exact ⟨failure, rfl⟩
  · exact Or.inr ⟨values, ⟨_, rfl, hr⟩, hv, htorn⟩

end OrderJournal

end PredictFun.Lifecycle
