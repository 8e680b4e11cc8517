import PredictFun.Base.BigEndian

namespace PredictFun.Base.Rlp

open BigEndian

inductive Item
  | bytes (value : List (BitVec 8))
  | list (items : List Item)

def framed (offset : ℕ) (payload : List (BitVec 8)) : List (BitVec 8) :=
  if payload.length ≤ 55 then BitVec.ofNat 8 (offset + payload.length) :: payload
  else BitVec.ofNat 8 (offset + 55 + (minimal payload.length).length) :: (minimal payload.length ++ payload)

def Plain (value : List (BitVec 8)) : Prop := value.length = 1 ∧ (value.headD 0).toNat < 0x80

instance (value : List (BitVec 8)) : Decidable (Plain value) := inferInstanceAs (Decidable (_ ∧ _))

mutual

def encode : Item → List (BitVec 8)
  | .bytes value => if Plain value then value else framed 0x80 value
  | .list items => framed 0xc0 (encodeAll items)

def encodeAll : List Item → List (BitVec 8)
  | [] => []
  | item :: items => encode item ++ encodeAll items

end

theorem encodeAll_eq (items : List Item) : encodeAll items = (items.map encode).flatten := by
  induction items with
  | nil => rfl
  | cons item items ih => rw [encodeAll, ih, List.map_cons, List.flatten_cons]

/-- The payload behind its length, and what follows. A length is refused that has a leading zero or a shorter form. -/
def unframe (offset : ℕ) (first : BitVec 8) (rest : List (BitVec 8)) : Option (List (BitVec 8) × List (BitVec 8)) :=
  let code := first.toNat - offset
  if code ≤ 55 then
    if code ≤ rest.length then some (rest.take code, rest.drop code) else none
  else
    let size := ofBytes (rest.take (code - 55))
    if code - 55 ≤ rest.length ∧ rest.head? ≠ some 0 ∧ 55 < size ∧ size ≤ rest.length - (code - 55) then
      some ((rest.drop (code - 55)).take size, (rest.drop (code - 55)).drop size)
    else none

/-- The items that bytes consist of; the fuel bounds the depth and the number of items. -/
def items : ℕ → List (BitVec 8) → Option (List Item)
  | _, [] => some []
  | 0, _ :: _ => none
  | fuel + 1, first :: rest =>
    if first.toNat < 0x80 then (items fuel rest).map (fun more => .bytes [first] :: more)
    else if first.toNat < 0xc0 then
      (unframe 0x80 first rest).bind (fun (payload, after) =>
        if Plain payload then none else (items fuel after).map (fun more => .bytes payload :: more))
    else
      (unframe 0xc0 first rest).bind (fun (payload, after) =>
        (items fuel payload).bind (fun inner => (items fuel after).map (fun more => .list inner :: more)))

def decode (input : List (BitVec 8)) : Option Item :=
  match items input.length input with
  | some [item] => some item
  | _ => none

theorem framed_cases (offset : ℕ) (ho : offset ≤ 0xc0) {payload : List (BitVec 8)} (hp : payload.length < 256 ^ 8) :
    ∃ first rest, framed offset payload = first :: rest ∧ offset ≤ first.toNat ∧ first.toNat < offset + 64 ∧
      payload.length ≤ rest.length ∧ ∀ more, unframe offset first (rest ++ more) = some (payload, more) := by
  unfold framed
  split_ifs with h
  · have hfirst : (BitVec.ofNat 8 (offset + payload.length)).toNat = offset + payload.length := by
      rw [BitVec.toNat_ofNat, Nat.mod_eq_of_lt (by omega)]
    refine ⟨_, _, rfl, by omega, by omega, le_refl _, fun more => ?_⟩
    have hcode : offset + payload.length - offset = payload.length := by omega
    simp only [unframe, hfirst, hcode]
    rw [if_pos h, if_pos (by simp), List.take_left, List.drop_left]
  · have hl := length_minimal_le hp
    have hfirst : (BitVec.ofNat 8 (offset + 55 + (minimal payload.length).length)).toNat =
        offset + 55 + (minimal payload.length).length := by
      rw [BitVec.toNat_ofNat, Nat.mod_eq_of_lt (by omega)]
    have hpos : (minimal payload.length).length ≠ 0 := by
      intro hz
      have hv := ofBytes_minimal payload.length
      rw [List.length_eq_zero_iff.mp hz] at hv
      simp [ofBytes, Positional.value] at hv
      omega
    refine ⟨_, _, rfl, by omega, by omega, by simp, fun more => ?_⟩
    have hcode : offset + 55 + (minimal payload.length).length - offset = 55 + (minimal payload.length).length := by omega
    have hwidth : 55 + (minimal payload.length).length - 55 = (minimal payload.length).length := by omega
    have hhead : ((minimal payload.length ++ payload) ++ more).head? = (minimal payload.length).head? := by
      rw [List.append_assoc, List.head?_append_of_ne_nil _ (fun hn => hpos (List.length_eq_zero_iff.mpr hn))]
    simp only [unframe, hfirst, hcode, hwidth, hhead]
    rw [if_neg (by omega), List.append_assoc, List.take_left, List.drop_left, ofBytes_minimal, if_pos, List.take_left,
      List.drop_left]
    refine ⟨by simp, minimal_head _, by omega, ?_⟩
    simp only [List.length_append]
    omega

theorem items_plain {value : List (BitVec 8)} (h : Plain value) (fuel : ℕ) (rest : List (BitVec 8)) :
    items (fuel + 1) (value ++ rest) = (items fuel rest).map (fun more => .bytes value :: more) := by
  obtain ⟨b, rfl⟩ := List.length_eq_one_iff.mp h.1
  have hb : b.toNat < 0x80 := h.2
  rw [List.singleton_append, items, if_pos hb]

theorem items_bytes {value : List (BitVec 8)} (h : ¬Plain value) (hl : value.length < 256 ^ 8) (fuel : ℕ)
    (rest : List (BitVec 8)) :
    items (fuel + 1) (framed 0x80 value ++ rest) = (items fuel rest).map (fun more => .bytes value :: more) := by
  obtain ⟨first, tail, hf, hlow, hhigh, -, hu⟩ := framed_cases 0x80 (by norm_num) hl
  rw [hf, List.cons_append, items, if_neg (by omega), if_pos (by omega), hu]
  exact if_neg h

theorem items_list {payload : List (BitVec 8)} {inner : List Item} (hl : payload.length < 256 ^ 8) {fuel : ℕ}
    (h : items fuel payload = some inner) (rest : List (BitVec 8)) :
    items (fuel + 1) (framed 0xc0 payload ++ rest) = (items fuel rest).map (fun more => .list inner :: more) := by
  obtain ⟨first, tail, hf, hlow, -, -, hu⟩ := framed_cases 0xc0 (by norm_num) hl
  rw [hf, List.cons_append, items, if_neg (by omega), if_neg (by omega), hu, Option.bind_some]
  dsimp only
  rw [h, Option.bind_some]

theorem length_lt_framed (offset : ℕ) (payload : List (BitVec 8)) : payload.length < (framed offset payload).length := by
  unfold framed
  split_ifs <;> simp

theorem length_framed_le (offset : ℕ) (payload : List (BitVec 8)) (h : payload.length < 256 ^ 8) :
    (framed offset payload).length ≤ payload.length + 9 := by
  have hl := length_minimal_le h
  unfold framed
  split_ifs
  · simp
  · simp only [List.length_cons, List.length_append]
    omega

theorem length_bytes_le (value : List (BitVec 8)) (h : value.length < 256 ^ 8) :
    (encode (.bytes value)).length ≤ value.length + 9 := by
  rw [encode]
  split_ifs
  · omega
  · exact length_framed_le _ _ h

theorem encode_pos (item : Item) : 0 < (encode item).length := by
  cases item with
  | bytes value =>
    rw [encode]
    split_ifs with h
    · rw [h.1]
      norm_num
    · exact Nat.zero_lt_of_lt (length_lt_framed _ _)
  | list items =>
    rw [encode]
    exact Nat.zero_lt_of_lt (length_lt_framed _ _)

theorem items_encodeAll (fuel : ℕ) (all : List Item) (hf : (encodeAll all).length ≤ fuel)
    (hl : (encodeAll all).length < 256 ^ 8) : items fuel (encodeAll all) = some all := by
  -- the fuel bounds what is inside an item and what follows it, which are both shorter
  induction fuel generalizing all with
  | zero =>
    cases all with
    | nil => rfl
    | cons item more =>
      rw [encodeAll, List.length_append] at hf
      have := encode_pos item
      omega
  | succ fuel ih =>
    cases all with
    | nil => rfl
    | cons item more =>
      rw [encodeAll, List.length_append] at hf hl
      have hpos := encode_pos item
      have hmore := ih more (by omega) (by omega)
      rw [encodeAll]
      cases item with
      | bytes value =>
        rw [encode] at hf hl hpos ⊢
        split_ifs at hf hl hpos ⊢ with h
        · rw [items_plain h, hmore]
          rfl
        · have hvalue := length_lt_framed 0x80 value
          rw [items_bytes h (by omega), hmore]
          rfl
      | list inner =>
        rw [encode] at hf hl hpos ⊢
        have hvalue := length_lt_framed 0xc0 (encodeAll inner)
        rw [items_list (by omega) (ih inner (by omega) (by omega)), hmore]
        rfl

theorem decode_encode {item : Item} (h : (encode item).length < 256 ^ 8) : decode (encode item) = some item := by
  have hall : encodeAll [item] = encode item := by rw [encodeAll, encodeAll, List.append_nil]
  rw [← hall] at h
  rw [decode, ← hall, items_encodeAll _ [item] (le_refl _) h]

end PredictFun.Base.Rlp
