import PredictFun.Lifecycle.Journal

namespace PredictFun.Lifecycle

open Base Wire RecordLog Storage

def header (size crc : BitVec 32) : Bytes := littleEndian 4 size ++ littleEndian 4 crc

def frame (order : TrackedOrder) : Bytes :=
  header (BitVec.ofNat 32 (payload order).length) (crc32 (payload order)) ++ payload order

@[simp] theorem header_length (size crc : BitVec 32) : (header size crc).length = 8 := by
  simp [header]

theorem frame_length (order : TrackedOrder) : (frame order).length = 8 + (payload order).length := by
  rw [frame, List.length_append, header_length]

def Encodes (maximum : ℕ) (order : TrackedOrder) : Prop := FieldsFit order ∧ (payload order).length ≤ maximum

instance (maximum : ℕ) (order : TrackedOrder) : Decidable (Encodes maximum order) :=
  inferInstanceAs (Decidable (_ ∧ _))

variable {maximum : ℕ} {order : TrackedOrder}

theorem render_ok (h : Encodes maximum order) :
    ∃ chunks, render maximum order = .ok chunks ∧ chunks.1 ++ chunks.2 = frame order := by
  have he : encode order maximum = .ok (payload order) := (encode_ok_iff order maximum _).mpr ⟨h.1, h.2, rfl⟩
  refine ⟨_, by rw [render, he]; rfl, rfl⟩

theorem render_error (h : ¬Encodes maximum order) :
    ∃ error, render maximum order = .error error := by
  cases he : encode order maximum with
  | error error => exact ⟨error, by rw [render, he]; rfl⟩
  | ok bytes =>
    obtain ⟨hf, hl, -⟩ := (encode_ok_iff order maximum bytes).mp he
    exact absurd ⟨hf, hl⟩ h

def encodable (maximum : ℕ) (orders : List TrackedOrder) : List TrackedOrder :=
  orders.takeWhile (fun order => Encodes maximum order)

theorem encodable_single {records : List TrackedOrder} (hl : records.length ≤ 1)
    (hfail : ¬∀ order ∈ records, Encodes maximum order) : encodable maximum records = [] := by
  match records, hl with
  | [], _ => rfl
  | [order], _ =>
    rw [encodable, List.takeWhile_cons_of_neg]
    simpa using hfail

theorem rendered_render (maximum : ℕ) (orders : List TrackedOrder) :
    rendered (render maximum) orders = (encodable maximum orders).flatMap frame := by
  induction orders with
  | nil => rfl
  | cons order orders ih =>
    rw [rendered, encodable]
    by_cases h : Encodes maximum order
    · obtain ⟨chunks, hc, hf⟩ := render_ok h
      rw [hc, List.takeWhile_cons_of_pos (by simpa using h), List.flatMap_cons, ← hf, ← encodable, ← ih]
    · obtain ⟨error, he⟩ := render_error h
      rw [he, List.takeWhile_cons_of_neg (by simpa using h), List.flatMap_nil]

theorem verdict_render (maximum : ℕ) (orders : List TrackedOrder) :
    (∀ order ∈ orders, Encodes maximum order) ∧ verdict (render maximum) orders = .ok () ∨
      (¬∀ order ∈ orders, Encodes maximum order) ∧ ∃ error, verdict (render maximum) orders = .error error := by
  induction orders with
  | nil => exact Or.inl ⟨by simp, rfl⟩
  | cons order orders ih =>
    rw [verdict]
    by_cases h : Encodes maximum order
    · obtain ⟨chunks, hc, -⟩ := render_ok h
      simpa only [hc, List.mem_cons, forall_eq_or_imp, h, true_and] using ih
    · obtain ⟨error, he⟩ := render_error h
      rw [he]
      exact Or.inr ⟨fun hall => h (hall order (by simp)), error, rfl⟩

theorem encodable_of_all {orders : List TrackedOrder} (h : ∀ order ∈ orders, Encodes maximum order) :
    encodable maximum orders = orders := by
  rw [encodable, List.takeWhile_eq_self_iff]
  simpa using h

theorem mem_encodable {orders : List TrackedOrder}
    (h : order ∈ encodable maximum orders) : order ∈ orders ∧ Encodes maximum order :=
  ⟨(List.takeWhile_prefix _).subset h, by simpa using List.mem_takeWhile_imp h⟩

variable (maximum : ℕ) (path : Bytes)

theorem frames_next : (frames maximum path).next = nextFrame maximum path := rfl

theorem nextFrame_nil : nextFrame maximum path [] = .finished := rfl

variable {order : TrackedOrder} {input : Bytes} {torn : Bytes}

theorem nextFrame_short (h0 : input ≠ []) (h8 : input.length < 8) :
    nextFrame maximum path input = .truncated := by
  rw [nextFrame, if_neg (by simpa using h0), if_pos h8]

theorem nextFrame_header (size crc : BitVec 32) (rest : Bytes) :
    nextFrame maximum path (header size crc ++ rest) =
      if size.toNat > maximum then
        .corrupt (corrupt (ascii "lifecycle journal frame exceeds configured bound") path)
      else if rest.length < size.toNat then .truncated
      else if crc32 (rest.take size.toNat) ≠ crc then
        .corrupt (corrupt (ascii "lifecycle journal checksum mismatch") path)
      else
        match decode (rest.take size.toNat) with
        | .error error => .corrupt (corrupt error.message path)
        | .ok order => .record ⟨order, size.toNat⟩ (rest.drop size.toNat) := by
  have hl : (header size crc ++ rest).length = 8 + rest.length := by rw [List.length_append, header_length]
  have hsize : ofLittleEndian 0 ((header size crc ++ rest).take 4) = size := by
    rw [header, List.append_assoc, List.take_left' (littleEndian_length 4 size)]
    exact ofLittleEndian_littleEndian (by norm_num) size
  have hcrc : ofLittleEndian 0 (((header size crc ++ rest).drop 4).take 4) = crc := by
    rw [header, List.append_assoc, List.drop_left' (littleEndian_length 4 size),
      List.take_left' (littleEndian_length 4 crc)]
    exact ofLittleEndian_littleEndian (by norm_num) crc
  have hrest : (header size crc ++ rest).drop 8 = rest := List.drop_left' (header_length size crc)
  rw [nextFrame, if_neg (by omega), if_neg (by omega)]
  dsimp only
  rw [hsize, hcrc]
  generalize (header size crc ++ rest).drop 8 = tail at hrest ⊢
  subst hrest
  rfl

theorem nextFrame_frame (h : Encodes maximum order) (hs : (payload order).length < 2 ^ 32)
    (more : Bytes) :
    nextFrame maximum path (frame order ++ more) = .record ⟨order, (payload order).length⟩ more := by
  have hn : (BitVec.ofNat 32 (payload order).length).toNat = (payload order).length := by
    rw [BitVec.toNat_ofNat, Nat.mod_eq_of_lt hs]
  rw [frame, List.append_assoc, nextFrame_header, hn, if_neg (by have := h.2; omega),
    if_neg (by rw [List.length_append]; omega), List.take_left' rfl, if_neg (by simp), decode_payload h.1,
    List.drop_left' rfl]

theorem header_of_length {bytes : Bytes} (h : bytes.length = 8) : ∃ size crc, bytes = header size crc := by
  refine ⟨ofLittleEndian 0 (bytes.take 4), ofLittleEndian 0 (bytes.drop 4), ?_⟩
  have h4 : (bytes.take 4).length = 4 := by rw [List.length_take]; omega
  have h4' : (bytes.drop 4).length = 4 := by rw [List.length_drop]; omega
  have ht := littleEndian_ofLittleEndian (w := 32) (bytes.take 4) (by omega)
  have hd := littleEndian_ofLittleEndian (w := 32) (bytes.drop 4) (by omega)
  rw [h4] at ht
  rw [h4'] at hd
  rw [header, ht, hd, List.take_append_drop]

theorem header_split (h : 8 ≤ input.length) : ∃ size crc, input = header size crc ++ input.drop 8 := by
  obtain ⟨size, crc, hh⟩ := header_of_length (show (input.take 8).length = 8 by rw [List.length_take]; omega)
  exact ⟨size, crc, by rw [← hh, List.take_append_drop]⟩

variable {maximum path}

theorem nextFrame_record {input rest : Bytes} {value : Frame} (h : nextFrame maximum path input = .record value rest) :
    ∃ size body, input = header size (crc32 body) ++ (body ++ rest) ∧ body.length = size.toNat ∧
      size.toNat ≤ maximum ∧ decode body = .ok value.order ∧ value.size = size.toNat := by
  have h8 : 8 ≤ input.length := by
    by_contra hlt
    by_cases h0 : input = []
    · rw [h0, nextFrame_nil] at h
      cases h
    · rw [nextFrame_short maximum path h0 (by omega)] at h
      cases h
  obtain ⟨size, crc, hi⟩ := header_split h8
  generalize input.drop 8 = tail at hi
  subst hi
  rw [nextFrame_header] at h
  split_ifs at h with hm hl hc
  split at h
  · cases h
  next order hd =>
    cases h
    rw [ne_eq, not_not] at hc
    refine ⟨size, tail.take size.toNat, ?_, ?_, by omega, hd, rfl⟩
    · rw [List.take_append_drop, hc]
    · rw [List.length_take]
      omega

theorem frames_local : (frames maximum path).Local := by
  intro input value rest h
  obtain ⟨size, body, rfl, hb, hm, hd, hv⟩ := nextFrame_record h
  refine ⟨header size (crc32 body) ++ body, by rw [List.append_assoc], fun more => ?_⟩
  rw [frames_next, List.append_assoc, nextFrame_header, if_neg (by omega), if_neg (by rw [List.length_append]; omega),
    List.take_left' hb, if_neg (by simp), hd, List.drop_left' hb, ← hv]

/-- A header with another size than the record behind it leads nowhere: no cut of the record, and no record with
more bytes behind it, is a record. -/
theorem nextFrame_wrong_size {size crc : BitVec 32} {rest : Bytes} (hf : FieldsFit order)
    (hs : size.toNat ≠ (payload order).length) (hr : rest <+: payload order ∨ payload order <+: rest) (value : Frame)
    (more : Bytes) : nextFrame maximum path (header size crc ++ rest) ≠ .record value more := by
  intro h
  obtain ⟨size', body, he, hb, -, hd, -⟩ := nextFrame_record h
  obtain ⟨hh, rfl⟩ := List.append_inj he (by simp)
  have hsize : size' = size := by
    unfold header at hh
    have := congrArg (ofLittleEndian (w := 32) 0) (List.append_inj hh (by simp)).1
    rwa [ofLittleEndian_littleEndian (by norm_num), ofLittleEndian_littleEndian (by norm_num), eq_comm] at this
  have hp := decode_payload hf
  have hcomparable : body <+: payload order ∨ payload order <+: body := by
    rcases hr with hr | hr
    · exact Or.inl ((List.prefix_append body more).trans hr)
    · exact List.prefix_or_prefix_of_prefix (List.prefix_append body more) hr
  apply hs
  rw [← hsize, ← hb]
  rcases hcomparable with ⟨t, ht⟩ | ⟨t, ht⟩
  · rw [← ht] at hp
    have hnil := decode_prefix_free hd hp
    rw [← ht, hnil, List.append_nil]
  · rw [← ht] at hd
    have hnil := decode_prefix_free hp hd
    rw [← ht, hnil, List.append_nil]

theorem nextFrame_finished (h : nextFrame maximum path input = .finished) : input = [] := by
  by_contra h0
  by_cases h8 : input.length < 8
  · rw [nextFrame_short maximum path h0 h8] at h
    cases h
  · obtain ⟨size, crc, hi⟩ := header_split (show 8 ≤ input.length by omega)
    rw [hi, nextFrame_header] at h
    split_ifs at h
    split at h <;> cases h

theorem torn_split (h8 : 8 ≤ torn.length) (hp : torn <+: frame order)
    (hl : torn.length < (frame order).length) :
    ∃ rest, torn = header (BitVec.ofNat 32 (payload order).length) (crc32 (payload order)) ++ rest ∧
      rest <+: payload order ∧ rest.length < (payload order).length := by
  obtain ⟨rest, rfl⟩ : header (BitVec.ofNat 32 (payload order).length) (crc32 (payload order)) <+: torn :=
    List.prefix_of_prefix_length_le (List.prefix_append _ _) hp (by rw [header_length]; exact h8)
  refine ⟨rest, rfl, (List.prefix_append_right_inj _).mp hp, ?_⟩
  rw [frame_length, List.length_append, header_length] at hl
  omega

theorem nextFrame_torn (he : Encodes maximum order)
    (hs : (payload order).length < 2 ^ 32) (h0 : torn ≠ []) (hp : torn <+: frame order)
    (hl : torn.length < (frame order).length) : nextFrame maximum path torn = .truncated := by
  by_cases h8 : torn.length < 8
  · exact nextFrame_short maximum path h0 h8
  · obtain ⟨rest, rfl, -, hrest⟩ := torn_split (by omega) hp hl
    have hn : (BitVec.ofNat 32 (payload order).length).toNat = (payload order).length := by
      rw [BitVec.toNat_ofNat, Nat.mod_eq_of_lt hs]
    rw [nextFrame_header, hn, if_neg (by have := he.2; omega), if_pos hrest]

variable (maximum path) in
theorem nextFrame_frame_or_corrupt (hf : FieldsFit order) (more : Bytes) :
    (Encodes maximum order ∧ (payload order).length < 2 ^ 32) ∨
      ∃ failure, nextFrame maximum path (frame order ++ more) = .corrupt failure := by
  by_cases hs : (payload order).length < 2 ^ 32
  · by_cases hm : (payload order).length ≤ maximum
    · exact Or.inl ⟨⟨hf, hm⟩, hs⟩
    · right
      rw [frame, List.append_assoc, nextFrame_header, BitVec.toNat_ofNat, Nat.mod_eq_of_lt hs, if_pos (by omega)]
      exact ⟨_, rfl⟩
  · right
    -- the size field holds the low 32 bits of the length
    have hlt : (BitVec.ofNat 32 (payload order).length).toNat < (payload order).length :=
      lt_of_lt_of_le (BitVec.isLt _) (by omega)
    rw [frame, List.append_assoc]
    cases h : nextFrame maximum path (header (BitVec.ofNat 32 (payload order).length) (crc32 (payload order)) ++
        (payload order ++ more)) with
    | finished =>
      have := congrArg List.length (nextFrame_finished h)
      simp at this
    | truncated =>
      rw [nextFrame_header] at h
      split_ifs at h with h₁ h₂
      · rw [List.length_append] at h₂
        omega
      · split at h <;> cases h
    | corrupt failure => exact ⟨failure, rfl⟩
    | record value rest =>
      exact absurd h (nextFrame_wrong_size hf hlt.ne (Or.inr (List.prefix_append _ _)) value rest)

theorem nextFrame_torn_or_corrupt (hf : FieldsFit order) (hp : torn <+: frame order)
    (hl : torn.length < (frame order).length) (value : Frame) (rest : Bytes) :
    nextFrame maximum path torn ≠ .record value rest := by
  intro h
  by_cases h8 : torn.length < 8
  · by_cases h0 : torn = []
    · rw [h0, nextFrame_nil] at h
      cases h
    · rw [nextFrame_short maximum path h0 h8] at h
      cases h
  · obtain ⟨cut, rfl, hc, hcl⟩ := torn_split (by omega) hp hl
    by_cases hs : (BitVec.ofNat 32 (payload order).length).toNat = (payload order).length
    · rw [nextFrame_header, hs, if_pos hcl] at h
      split_ifs at h
    · exact nextFrame_wrong_size hf hs (Or.inl hc) value rest h

end PredictFun.Lifecycle
