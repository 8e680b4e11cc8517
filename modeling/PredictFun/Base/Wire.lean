import PredictFun.Base.LittleEndian

namespace PredictFun.Base.Wire

abbrev Parser (α : Type) := StateT (List (BitVec 8)) Option α

variable {α γ : Type}

def take (n : ℕ) : Parser (List (BitVec 8)) := fun input =>
  if input.length < n then none else some (input.take n, input.drop n)

def readLe (w n : ℕ) : Parser (BitVec w) := do
  let bytes ← take n
  return ofLittleEndian 0 bytes

def readString : Parser (List (BitVec 8)) := do
  let size ← readLe 32 4
  take size.toNat

def appendString (out value : List (BitVec 8)) : Option (List (BitVec 8)) :=
  if value.length > 2 ^ 32 - 1 then none
  else some (out ++ littleEndian 4 (BitVec.ofNat 32 value.length) ++ value)

def block (value : List (BitVec 8)) : List (BitVec 8) := littleEndian 4 (BitVec.ofNat 32 value.length) ++ value

theorem appendString_eq (out value : List (BitVec 8)) :
    appendString out value = if value.length < 2 ^ 32 then some (out ++ block value) else none := by
  unfold appendString block
  rw [← List.append_assoc]
  split_ifs <;> first | rfl | omega

theorem block_length (value : List (BitVec 8)) : (block value).length = 4 + value.length := by
  simp [block]

theorem foldlM_appendString (out : List (BitVec 8)) (values : List (List (BitVec 8))) :
    values.foldlM appendString out =
      if ∀ value ∈ values, value.length < 2 ^ 32 then some (out ++ values.flatMap block) else none := by
  induction values generalizing out with
  | nil => simp
  | cons value values ih =>
    rw [List.foldlM_cons, appendString_eq]
    by_cases h : value.length < 2 ^ 32
    · rw [if_pos h, Option.bind_eq_bind, Option.bind_some, ih]
      simp only [List.mem_cons, forall_eq_or_imp, h, true_and, List.flatMap_cons, List.append_assoc]
    · rw [if_neg h, if_neg]
      · rfl
      · intro hall
        exact h (hall value (by simp))

variable {p : Parser α} {f : α → Parser γ} {input rest : List (BitVec 8)}

theorem bind_some {value : α}
    (h : p input = some (value, rest)) : (p >>= f) input = f value rest := by
  change (p input).bind (fun r => f r.1 r.2) = _
  rw [h]
  rfl

theorem bind_eq_some {value : γ}
    (h : (p >>= f) input = some (value, rest)) :
    ∃ first middle, p input = some (first, middle) ∧ f first middle = some (value, rest) := by
  change (p input).bind (fun r => f r.1 r.2) = _ at h
  obtain ⟨⟨first, middle⟩, hp, hf⟩ := Option.bind_eq_some_iff.mp h
  exact ⟨first, middle, hp, hf⟩

theorem take_append {bytes : List (BitVec 8)} {n : ℕ} (h : bytes.length = n) (rest : List (BitVec 8)) :
    take n (bytes ++ rest) = some (bytes, rest) := by
  subst h
  simp [take]

theorem readLe_littleEndian {w n : ℕ} (h : w = 8 * n) (v : BitVec w) (rest : List (BitVec 8)) :
    readLe w n (littleEndian n v ++ rest) = some (v, rest) := by
  rw [readLe, bind_some (take_append (littleEndian_length n v) rest), ofLittleEndian_littleEndian h]
  rfl

theorem readString_block {value : List (BitVec 8)} (h : value.length < 2 ^ 32) (rest : List (BitVec 8)) :
    readString (block value ++ rest) = some (value, rest) := by
  rw [readString, block, List.append_assoc, bind_some (readLe_littleEndian (by norm_num) _ _)]
  apply take_append
  rw [BitVec.toNat_ofNat, Nat.mod_eq_of_lt h]

theorem take_eq_some {n : ℕ} {input value rest : List (BitVec 8)} (h : take n input = some (value, rest)) :
    value.length = n ∧ input = value ++ rest := by
  unfold take at h
  split_ifs at h
  cases h
  rw [List.length_take, List.take_append_drop]
  exact ⟨by omega, rfl⟩

theorem readLe_eq_some {w n : ℕ} (hw : w = 8 * n) {value : BitVec w}
    (h : readLe w n input = some (value, rest)) : input = littleEndian n value ++ rest := by
  obtain ⟨bytes, middle, ht, hp⟩ := bind_eq_some h
  cases hp
  obtain ⟨rfl, rfl⟩ := take_eq_some ht
  rw [littleEndian_ofLittleEndian bytes hw.ge]

theorem readString_eq_some {input value rest : List (BitVec 8)} (h : readString input = some (value, rest)) :
    value.length < 2 ^ 32 ∧ input = block value ++ rest := by
  obtain ⟨size, middle, hs, ht⟩ := bind_eq_some h
  obtain ⟨hv, rfl⟩ := take_eq_some ht
  have hsize : BitVec.ofNat 32 value.length = size := by rw [hv, BitVec.ofNat_toNat, BitVec.setWidth_eq]
  refine ⟨hv ▸ size.isLt, ?_⟩
  rw [readLe_eq_some (by norm_num) hs, block, hsize, List.append_assoc]

def Stable (p : Parser α) : Prop :=
  ∀ input value rest more, p input = some (value, rest) → p (input ++ more) = some (value, rest ++ more)

theorem Stable.pure (value : α) : Stable (Pure.pure value : Parser α) := by
  intro input result rest more h
  cases h
  rfl

theorem Stable.bind (hp : Stable p) (hf : ∀ value, Stable (f value)) :
    Stable (p >>= f) := by
  intro input value rest more h
  obtain ⟨first, middle, hfirst, hrest⟩ := bind_eq_some h
  rw [bind_some (hp input first middle more hfirst)]
  exact hf first middle value rest more hrest

theorem take_stable (n : ℕ) : Stable (take n) := by
  intro input value rest more h
  unfold take at h ⊢
  split_ifs at h with hl
  cases h
  have hn : n ≤ input.length := by omega
  rw [if_neg (by rw [List.length_append]; omega), List.take_append_of_le_length hn, List.drop_append_of_le_length hn]

theorem readLe_stable (w n : ℕ) : Stable (readLe w n) := (take_stable n).bind (fun _ => Stable.pure _)

theorem readString_stable : Stable readString := (readLe_stable 32 4).bind (fun _ => take_stable _)

theorem Stable.exact_prefix (hp : Stable p) {input more : List (BitVec 8)} {first second : α}
    (h₁ : p input = some (first, [])) (h₂ : p (input ++ more) = some (second, [])) : more = [] := by
  have h := hp input first [] more h₁
  rw [h₂] at h
  cases h
  rfl

end PredictFun.Base.Wire
