import PredictFun.Lifecycle.Host

namespace PredictFun.Lifecycle

open Base Wire RecordLog Storage

def flipBit (position bit : ℕ) (bytes : Bytes) : Bytes := bytes.modify position (fun c => c ^^^ (1#8 <<< bit))

def lengthField (bytes : Bytes) : ℕ := (ofLittleEndian 0 (bytes.take 4) : BitVec 32).toNat

theorem flip_ne (c : Byte) {bit : ℕ} (h : bit < 8) : c ^^^ (1#8 <<< bit) ≠ c := by
  intro he
  have hz : (1#8 <<< bit) = 0#8 := by
    have := congrArg (fun x => c ^^^ x) he
    simpa [← BitVec.xor_assoc] using this
  have hbit := congrArg (fun x : BitVec 8 => x.getLsbD bit) hz
  simp [h] at hbit

variable {position bit : ℕ} {bytes : Bytes}

theorem flipBit_append_left {first : Bytes} (second : Bytes) (h : position < first.length) :
    flipBit position bit (first ++ second) = flipBit position bit first ++ second := by
  unfold flipBit
  induction first generalizing position with
  | nil => cases h
  | cons c first ih =>
    cases position with
    | zero => rfl
    | succ position =>
      rw [List.cons_append, List.modify_succ_cons, List.modify_succ_cons, ih (by simpa using h), List.cons_append]

theorem flipBit_append_right (first second : Bytes) (h : first.length ≤ position) :
    flipBit position bit (first ++ second) = first ++ flipBit (position - first.length) bit second := by
  unfold flipBit
  induction first generalizing position with
  | nil => rfl
  | cons c first ih =>
    cases position with
    | zero => cases h
    | succ position =>
      rw [List.cons_append, List.modify_succ_cons, ih (by simpa using h), List.cons_append, List.length_cons,
        Nat.add_sub_add_right]

@[simp] theorem flipBit_length (position bit : ℕ) (bytes : Bytes) : (flipBit position bit bytes).length = bytes.length :=
  List.length_modify _ _ _

theorem flipBit_split (hp : position < bytes.length) (hb : bit < 8) :
    ∃ before c c' after, bytes = before ++ c :: after ∧ flipBit position bit bytes = before ++ c' :: after ∧ c' ≠ c := by
  refine ⟨bytes.take position, bytes[position], _, bytes.drop (position + 1), ?_, List.modify_eq_take_cons_drop hp,
    flip_ne _ hb⟩
  rw [List.getElem_cons_drop, List.take_append_drop]

theorem flipBit_ne (hp : position < bytes.length) (hb : bit < 8) :
    flipBit position bit bytes ≠ bytes := by
  obtain ⟨before, c, c', after, rfl, hf, hne⟩ := flipBit_split hp hb
  rw [hf]
  intro he
  exact hne (List.cons.inj (List.append_cancel_left he)).1

theorem crc32_window_ne {before after a b : Bytes} (hl : a.length = b.length) (ha : a.length ≤ 4) (hab : a ≠ b) :
    crc32 (before ++ (a ++ after)) ≠ crc32 (before ++ (b ++ after)) := by
  rw [crc32, crc32]
  intro he
  exact ShiftRegister.digest_ne_of_window_ne 0xedb88320#32 (by decide) 0xffffffff#32 before after hl (by omega) hab
    (BitVec.not_inj.mp he)

theorem crc32_flipBit_ne (hp : position < bytes.length) (hb : bit < 8) :
    crc32 (flipBit position bit bytes) ≠ crc32 bytes := by
  obtain ⟨before, c, c', after, rfl, hf, hne⟩ := flipBit_split hp hb
  rw [hf]
  exact crc32_window_ne (a := [c']) (b := [c]) rfl (by simp) (fun h => hne (List.singleton_inj.mp h))

/-- The four bytes may end past the end of the strings. -/
theorem crc32_burst_ne (first second : Bytes) (start : ℕ) (hl : first.length = second.length) (hne : first ≠ second)
    (hwindow : ∀ i, first[i]? ≠ second[i]? → start ≤ i ∧ i < start + 4) : crc32 first ≠ crc32 second := by
  have hsplit (bytes : Bytes) :
      bytes = bytes.take start ++ ((bytes.drop start).take 4 ++ bytes.drop (start + 4)) := by
    rw [← List.drop_drop, List.take_append_drop, List.take_append_drop]
  have hbefore : first.take start = second.take start := by
    apply List.ext_getElem?
    intro i
    rw [List.getElem?_take, List.getElem?_take]
    split_ifs with hi
    · by_contra h
      exact absurd (hwindow i h).1 (by omega)
    · rfl
  have hafter : first.drop (start + 4) = second.drop (start + 4) := by
    apply List.ext_getElem?
    intro i
    rw [List.getElem?_drop, List.getElem?_drop]
    by_contra h
    exact absurd (hwindow _ h).2 (by omega)
  have hmiddle : (first.drop start).take 4 ≠ (second.drop start).take 4 := by
    intro h
    apply hne
    rw [hsplit first, hsplit second, hbefore, h, hafter]
  rw [hsplit first, hsplit second, hbefore, hafter]
  exact crc32_window_ne (by simp [hl]) (List.length_take_le 4 _) hmiddle

theorem crc32_last_bytes_ne : crc32 [1, 2, 3, 4, 5] ≠ crc32 [1, 2, 4, 3, 0] :=
  crc32_burst_ne [1, 2, 3, 4, 5] [1, 2, 4, 3, 0] 2 rfl (by decide) (by
    intro i h
    match i with
    | 0 => exact absurd rfl h
    | 1 => exact absurd rfl h
    | 2 | 3 | 4 => omega
    | i + 5 => exact absurd rfl h)

theorem word_of_length (h : bytes.length = 4) :
    bytes = littleEndian 4 (ofLittleEndian 0 bytes : BitVec 32) := by
  have := littleEndian_ofLittleEndian (w := 32) bytes (by omega)
  rw [h] at this
  exact this.symm

theorem word_ne {v : BitVec 32} (h : bytes.length = 4) (hne : bytes ≠ littleEndian 4 v) :
    (ofLittleEndian 0 bytes : BitVec 32) ≠ v := by
  intro he
  apply hne
  rw [word_of_length h, he]

section

variable {maximum : ℕ} {path : Bytes} {order : TrackedOrder} {position bit : ℕ}

variable (order) in
theorem frame_flip_length (hp : position < 4) (hb : bit < 8) :
    ∃ size : BitVec 32, size.toNat = lengthField (flipBit position bit (frame order)) ∧
      size ≠ BitVec.ofNat 32 (payload order).length ∧
      flipBit position bit (frame order) = header size (crc32 (payload order)) ++ payload order := by
  have h4 : (littleEndian 4 (BitVec.ofNat 32 (payload order).length)).length = 4 := littleEndian_length _ _
  have hf : flipBit position bit (frame order) =
      flipBit position bit (littleEndian 4 (BitVec.ofNat 32 (payload order).length)) ++
        (littleEndian 4 (crc32 (payload order)) ++ payload order) := by
    rw [frame, header, List.append_assoc]
    exact flipBit_append_left _ (by omega)
  have hl : (flipBit position bit (littleEndian 4 (BitVec.ofNat 32 (payload order).length))).length = 4 := by
    rw [flipBit_length, h4]
  refine ⟨ofLittleEndian 0 (flipBit position bit (littleEndian 4 (BitVec.ofNat 32 (payload order).length))), ?_, ?_, ?_⟩
  · rw [lengthField, hf, List.take_left' hl]
  · exact word_ne hl (flipBit_ne (by omega) hb)
  · rw [hf, header, ← word_of_length hl, List.append_assoc]

variable (order) in
theorem frame_flip_crc (h4 : 4 ≤ position) (h8 : position < 8) (hb : bit < 8) :
    ∃ crc : BitVec 32, crc ≠ crc32 (payload order) ∧
      flipBit position bit (frame order) = header (BitVec.ofNat 32 (payload order).length) crc ++ payload order := by
  have hc : (littleEndian 4 (crc32 (payload order))).length = 4 := littleEndian_length _ _
  have hf : flipBit position bit (frame order) =
      littleEndian 4 (BitVec.ofNat 32 (payload order).length) ++
        (flipBit (position - 4) bit (littleEndian 4 (crc32 (payload order))) ++ payload order) := by
    rw [frame, header, List.append_assoc, flipBit_append_right _ _ (by rw [littleEndian_length]; exact h4),
      littleEndian_length, flipBit_append_left _ (by omega)]
  have hl : (flipBit (position - 4) bit (littleEndian 4 (crc32 (payload order)))).length = 4 := by
    rw [flipBit_length, hc]
  refine ⟨ofLittleEndian 0 (flipBit (position - 4) bit (littleEndian 4 (crc32 (payload order)))), ?_, ?_⟩
  · exact word_ne hl (flipBit_ne (by omega) hb)
  · rw [hf, header, ← word_of_length hl, List.append_assoc]

theorem frame_flip_payload (h8 : 8 ≤ position) :
    flipBit position bit (frame order) =
      header (BitVec.ofNat 32 (payload order).length) (crc32 (payload order)) ++
        flipBit (position - 8) bit (payload order) := by
  rw [frame, flipBit_append_right _ _ (by rw [header_length]; exact h8), header_length]

/-- The flipped bit makes the record announce more bytes than the file has left, within the configured bound. -/
def Overreaches (maximum : ℕ) (order : TrackedOrder) (position bit : ℕ) (more : Bytes) : Prop :=
  position < 4 ∧ lengthField (flipBit position bit (frame order)) ≤ maximum ∧
    (payload order).length + more.length < lengthField (flipBit position bit (frame order))

variable {more : Bytes}

theorem nextFrame_overreaches (hb : bit < 8) (h : Overreaches maximum order position bit more) :
    nextFrame maximum path (flipBit position bit (frame order) ++ more) = .truncated := by
  obtain ⟨size, hsize, -, hf⟩ := frame_flip_length order h.1 hb
  have hm := h.2.1
  have hl := h.2.2
  rw [← hsize] at hm hl
  rw [hf, List.append_assoc, nextFrame_header, if_neg (by omega), if_pos (by rw [List.length_append]; exact hl)]

theorem nextFrame_flip_size (he : Encodes maximum order) (hs : (payload order).length < 2 ^ 32)
    (hp : position < 4) (hb : bit < 8) (h : ¬Overreaches maximum order position bit more) :
    ∃ failure, nextFrame maximum path (flipBit position bit (frame order) ++ more) = .corrupt failure := by
  obtain ⟨size, hsize, hne, hf⟩ := frame_flip_length order hp hb
  have hwrong : size.toNat ≠ (payload order).length := by
    intro h
    apply hne
    apply BitVec.eq_of_toNat_eq
    rw [h, BitVec.toNat_ofNat, Nat.mod_eq_of_lt hs]
  -- the announced bytes are not the record's, so whatever they are they do not decode
  have hrecord : ∀ value rest, nextFrame maximum path (header size (crc32 (payload order)) ++ (payload order ++ more)) ≠
      .record value rest :=
    nextFrame_wrong_size he.1 hwrong (Or.inr (List.prefix_append (payload order) more))
  rw [Overreaches, ← hsize] at h
  rw [hf, List.append_assoc]
  rw [nextFrame_header] at hrecord ⊢
  split at hrecord
  next hm => exact ⟨_, if_pos hm⟩
  next hm =>
    rw [if_neg hm]
    split at hrecord
    next hl => exact absurd ⟨hp, by omega, by rw [List.length_append] at hl; exact hl⟩ h
    next hl =>
      rw [if_neg hl]
      split at hrecord
      next hc => exact ⟨_, if_pos hc⟩
      next hc =>
        rw [if_neg hc]
        cases hd : decode ((payload order ++ more).take size.toNat) with
        | error error => exact ⟨_, rfl⟩
        | ok other =>
          rw [hd] at hrecord
          exact absurd rfl (hrecord _ _)

theorem nextFrame_wrong_crc {size crc : BitVec 32} {body more : Bytes} (hl : body.length = size.toNat)
    (hc : crc32 body ≠ crc) :
    ∃ failure, nextFrame maximum path (header size crc ++ (body ++ more)) = .corrupt failure := by
  rw [nextFrame_header]
  split
  · exact ⟨_, rfl⟩
  · rw [if_neg (by rw [List.length_append]; omega), List.take_left' hl, if_pos hc]
    exact ⟨_, rfl⟩

theorem nextFrame_flip (he : Encodes maximum order) (hs : (payload order).length < 2 ^ 32)
    (hp : position < (frame order).length) (hb : bit < 8) (h : ¬Overreaches maximum order position bit more) :
    ∃ failure, nextFrame maximum path (flipBit position bit (frame order) ++ more) = .corrupt failure := by
  have hn : (BitVec.ofNat 32 (payload order).length).toNat = (payload order).length := by
    rw [BitVec.toNat_ofNat, Nat.mod_eq_of_lt hs]
  rw [frame_length] at hp
  by_cases h4 : position < 4
  · exact nextFrame_flip_size he hs h4 hb h
  · by_cases h8 : position < 8
    · obtain ⟨crc, hc, hf⟩ := frame_flip_crc order (by omega) h8 hb
      rw [hf, List.append_assoc]
      exact nextFrame_wrong_crc hn.symm (Ne.symm hc)
    · rw [frame_flip_payload (by omega), List.append_assoc]
      exact nextFrame_wrong_crc (by rw [flipBit_length, hn]) (crc32_flipBit_ne (by omega) hb)

end

namespace OrderJournal

variable {journal : OrderJournal}

theorem Holds.replay_corrupt {file tail : Bytes} {values : List Frame} {failure : Error} (h : journal.Holds file values)
    (ht : nextFrame journal.options.maximumRecordBytes journal.path tail = .corrupt failure) :
    journal.replayBytes (file ++ tail) = .error failure := by
  obtain ⟨body, rfl, hb⟩ := h
  rw [List.append_assoc, replayBytes_magic, Reads.scan_eq _ _ hb, scan_corrupt _ _ _ _ _ _ ht]
  rfl

theorem replay_error {file : Bytes} {error : Error} (h : journal.replayBytes file = .error error) :
    journal.replay ⟨some file, []⟩ = (.error error, ⟨some file, []⟩) := by
  rw [OrderJournal.replay, bind_ok (contents_apply _)]
  dsimp only
  rw [h]
  rfl

theorem open_error {file : Bytes} {error : Error} (h : journal.replayBytes file = .error error) :
    ∃ error w, PersistentOrderTracker.open journal ⟨some file, []⟩ = (.error error, w) := by
  by_cases hu : journal.Usable
  · exact ⟨error, _, open_unreadable hu h⟩
  · obtain ⟨error, ho⟩ := open_unusable hu ⟨some file, []⟩
    exact ⟨error, _, ho⟩

section

variable {before after : List TrackedOrder} {order : TrackedOrder} {position bit : ℕ}

def corruptedFile (before : List TrackedOrder) (order : TrackedOrder) (after : List TrackedOrder) (position bit : ℕ) :
    Bytes :=
  fileMagic ++ before.flatMap frame ++ (flipBit position bit (frame order) ++ after.flatMap frame)

theorem holds_before (he : ∀ record ∈ before, Encodes journal.options.maximumRecordBytes record)
    (hs : ∀ record ∈ before, (payload record).length < 2 ^ 32) :
    ∃ values, journal.Holds (fileMagic ++ before.flatMap frame) values ∧ values.map Frame.order = before := by
  obtain ⟨values, hh, hv⟩ := holds_magic.append before he hs
  exact ⟨values, hh, by simpa using hv⟩

theorem replay_overreaching (he : ∀ record ∈ before, Encodes journal.options.maximumRecordBytes record)
    (hs : ∀ record ∈ before, (payload record).length < 2 ^ 32) (hb : bit < 8)
    (h : Overreaches journal.options.maximumRecordBytes order position bit (after.flatMap frame)) :
    ∃ valid, journal.replay ⟨some (corruptedFile before order after position bit), []⟩ =
      (.ok (replayed before valid true), ⟨some (corruptedFile before order after position bit), []⟩) := by
  obtain ⟨values, hh, hv⟩ := holds_before he hs
  have ht : journal.Torn (flipBit position bit (frame order) ++ after.flatMap frame) :=
    Or.inr (nextFrame_overreaches hb h)
  have hne : flipBit position bit (frame order) ++ after.flatMap frame ≠ [] := by
    intro hnil
    have := congrArg List.length hnil
    rw [List.length_append, flipBit_length, frame_length, List.length_nil] at this
    omega
  refine ⟨(fileMagic ++ before.flatMap frame).length, replay_apply _ _ ?_⟩
  rw [corruptedFile, hh.replay ht, hv, decide_eq_true hne]

theorem replay_flipped (he : ∀ record ∈ before ++ order :: after, Encodes journal.options.maximumRecordBytes record)
    (hs : ∀ record ∈ before ++ order :: after, (payload record).length < 2 ^ 32)
    (hp : position < (frame order).length) (hb : bit < 8)
    (h : ¬Overreaches journal.options.maximumRecordBytes order position bit (after.flatMap frame)) :
    ∃ error, journal.replayBytes (corruptedFile before order after position bit) = .error error := by
  obtain ⟨values, hh, -⟩ := holds_before (fun r hr => he r (List.mem_append_left _ hr))
    (fun r hr => hs r (List.mem_append_left _ hr))
  have ho : order ∈ before ++ order :: after := by simp
  obtain ⟨failure, hc⟩ := nextFrame_flip (he order ho) (hs order ho) hp hb h
  exact ⟨failure, hh.replay_corrupt hc⟩

end

/-- A flipped bit of a complete record is refused by the replay and by the open, unless it makes the length of the record
run past the end of the file: such a record is taken for a torn tail. -/
theorem flipped_bit_refused_iff (journal : OrderJournal) (before after : List TrackedOrder) (order : TrackedOrder)
    (position bit : ℕ) (he : ∀ record ∈ before ++ order :: after, Encodes journal.options.maximumRecordBytes record)
    (hs : ∀ record ∈ before ++ order :: after, (payload record).length < 2 ^ 32)
    (hp : position < (frame order).length) (hb : bit < 8) :
    ((∃ error w, journal.replay ⟨some (corruptedFile before order after position bit), []⟩ = (.error error, w)) ∧
      ∃ error w, PersistentOrderTracker.open journal ⟨some (corruptedFile before order after position bit), []⟩ =
        (.error error, w)) ↔
      ¬Overreaches journal.options.maximumRecordBytes order position bit (after.flatMap frame) := by
  constructor
  · rintro ⟨⟨error, w, hr⟩, -⟩ h
    obtain ⟨valid, hok⟩ := replay_overreaching (fun r hr => he r (List.mem_append_left _ hr))
      (fun r hr => hs r (List.mem_append_left _ hr)) hb h
    rw [hok] at hr
    cases hr
  · intro h
    obtain ⟨error, hr⟩ := replay_flipped he hs hp hb h
    exact ⟨⟨error, _, replay_error hr⟩, open_error hr⟩

/-- Whatever follows it, a record is refused once up to four consecutive bytes of its payload have changed. -/
theorem burst_refused (journal : OrderJournal) (before : List TrackedOrder) (order : TrackedOrder)
    (start a b rest more : Bytes) (he : ∀ record ∈ before, Encodes journal.options.maximumRecordBytes record)
    (hs : ∀ record ∈ order :: before, (payload record).length < 2 ^ 32) (hp : payload order = start ++ (a ++ rest))
    (hl : b.length = a.length) (ha : a.length ≤ 4) (hne : b ≠ a) :
    let file := fileMagic ++ before.flatMap frame ++
      (header (BitVec.ofNat 32 (payload order).length) (crc32 (payload order)) ++ ((start ++ (b ++ rest)) ++ more))
    (∃ error w, journal.replay ⟨some file, []⟩ = (.error error, w)) ∧
      ∃ error w, PersistentOrderTracker.open journal ⟨some file, []⟩ = (.error error, w) := by
  obtain ⟨values, hh, -⟩ := holds_before he (fun r hr => hs r (List.mem_cons_of_mem _ hr))
  have hlength : (start ++ (b ++ rest)).length = (BitVec.ofNat 32 (payload order).length).toNat := by
    rw [BitVec.toNat_ofNat, Nat.mod_eq_of_lt (hs order List.mem_cons_self), hp]
    simp [hl]
  have hcrc : crc32 (start ++ (b ++ rest)) ≠ crc32 (payload order) := by
    rw [hp]
    exact crc32_window_ne hl (by omega) hne
  obtain ⟨failure, hc⟩ := nextFrame_wrong_crc hlength hcrc
  have hr := hh.replay_corrupt hc
  exact ⟨⟨failure, _, replay_error hr⟩, open_error hr⟩

theorem sample_complete : ∀ record ∈ [submitted sampleHash tenShares],
    Encodes sampleJournal.options.maximumRecordBytes record ∧ (payload record).length < 2 ^ 32 := by
  intro record hr
  obtain rfl := List.mem_singleton.mp hr
  exact ⟨⟨by decide, by decide⟩, by decide⟩

theorem flipped_payload_refused :
    ∃ error w, PersistentOrderTracker.open sampleJournal
      ⟨some (corruptedFile [] (submitted sampleHash tenShares) [] 8 0), []⟩ = (.error error, w) :=
  ((flipped_bit_refused_iff sampleJournal [] [] (submitted sampleHash tenShares) 8 0
    (fun record hr => (sample_complete record hr).1) (fun record hr => (sample_complete record hr).2)
    (by rw [frame_length, payload_length]; omega) (by decide)).mpr (fun h => absurd h.1 (by decide))).2

theorem overwritten_payload_refused :
    ∃ error w, PersistentOrderTracker.open sampleJournal
      ⟨some (fileMagic ++ [] ++ (header (BitVec.ofNat 32 (payload (submitted sampleHash tenShares)).length)
        (crc32 (payload (submitted sampleHash tenShares))) ++
          (([] ++ ([0, 0, 0, 0] ++ (payload (submitted sampleHash tenShares)).drop 4)) ++ []))), []⟩ = (.error error, w) :=
  (burst_refused sampleJournal [] (submitted sampleHash tenShares) [] ((payload _).take 4) [0, 0, 0, 0] _ [] (by simp)
    (fun record hr => (sample_complete record hr).2) (List.take_append_drop 4 _).symm (by decide) (by decide)
    (by decide)).2

theorem sample_overreaches :
    Overreaches sampleJournal.options.maximumRecordBytes (submitted sampleHash tenShares) 1 7 [] :=
  ⟨by decide, by decide +kernel, by decide⟩

/-- The highest bit of the second length byte: the only record of the journal is gone and nothing is reported. -/
theorem flipped_length_accepted :
    (∃ replay w, sampleJournal.replay ⟨some (fileMagic ++ frame (submitted sampleHash tenShares)), []⟩ =
        (.ok replay, w) ∧ replay.orders = [submitted sampleHash tenShares]) ∧
      (∃ replay w, sampleJournal.replay ⟨some (corruptedFile [] (submitted sampleHash tenShares) [] 1 7), []⟩ =
        (.ok replay, w) ∧ replay.orders = []) ∧
      ∃ p w, PersistentOrderTracker.open sampleJournal
        ⟨some (corruptedFile [] (submitted sampleHash tenShares) [] 1 7), []⟩ = (.ok p, w) ∧ p.tracker.snapshot = [] := by
  refine ⟨?_, ?_, ?_⟩
  · obtain ⟨values, hh, hv⟩ := holds_before (fun record hr => (sample_complete record hr).1)
      (fun record hr => (sample_complete record hr).2)
    have hr := hh.replay (Or.inl rfl)
    rw [hv, List.append_nil] at hr
    rw [← List.flatMap_singleton frame (submitted sampleHash tenShares)]
    exact ⟨_, _, replay_apply _ _ hr, by rfl⟩
  · have hr : ∃ valid, sampleJournal.replay ⟨some (corruptedFile [] (submitted sampleHash tenShares) [] 1 7), []⟩ =
        (.ok (replayed [] valid true), _) :=
      replay_overreaching (by simp) (by simp) (by decide) sample_overreaches
    obtain ⟨valid, hr⟩ := hr
    exact ⟨_, _, hr, rfl⟩
  · have ht : sampleJournal.Torn (flipBit 1 7 (frame (submitted sampleHash tenShares)) ++ []) :=
      Or.inr (nextFrame_overreaches (by decide) sample_overreaches)
    have hf : (some (corruptedFile [] (submitted sampleHash tenShares) [] 1 7)).getD fileMagic =
        fileMagic ++ (flipBit 1 7 (frame (submitted sampleHash tenShares)) ++ []) := by
      rw [Option.getD_some, corruptedFile, List.flatMap_nil, List.append_nil fileMagic]
    exact ⟨_, _, open_recovered sampleJournal_usable hf holds_magic ht rfl, rfl⟩

end OrderJournal

end PredictFun.Lifecycle
