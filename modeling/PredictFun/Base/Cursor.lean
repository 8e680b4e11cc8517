import PredictFun.Base.Wire

namespace PredictFun.Base.Cursor

open Wire

inductive Fault
  -- an access that leaves the buffer
  | outside
  -- the reader itself gives up
  | refused
  deriving DecidableEq

abbrev Reader (α : Type) := StateT ℕ (Except Fault) α

variable {α γ : Type} {input : List (BitVec 8)}

section

variable (input : List (BitVec 8))

def byteAt : Reader (BitVec 8) := fun offset =>
  match input[offset]? with
  | none => .error .outside
  | some b => .ok (b, offset + 1)

def gather (w : ℕ) : ℕ → ℕ → BitVec w → Reader (BitVec w)
  | 0, _, bits => pure bits
  | n + 1, index, bits => do
    let b ← byteAt input
    gather w n (index + 1) (bits ||| b.setWidth w <<< (index * 8))

def copy : ℕ → Reader (List (BitVec 8))
  | 0 => pure []
  | n + 1 => do
    let b ← byteAt input
    let bytes ← copy n
    return b :: bytes

def guarded (n : ℕ) (reader : Reader α) : Reader α := fun offset =>
  if offset > input.length ∨ input.length - offset < n then .error .refused else reader offset

def readLe (w n : ℕ) : Reader (BitVec w) := guarded input n (gather input w n 0 0)

def readString : Reader (List (BitVec 8)) := do
  let size ← readLe input 32 4
  guarded input size.toNat (copy input size.toNat)

end

/-- At every position of the buffer the reader does what the parser does to the bytes from there on, and stays inside. -/
def Follows (input : List (BitVec 8)) (reader : Reader α) (parser : Parser α) : Prop :=
  ∀ offset ≤ input.length,
    (parser (input.drop offset) = none ∧ reader offset = .error .refused) ∨
      ∃ value, ∃ next ≤ input.length,
        parser (input.drop offset) = some (value, input.drop next) ∧ reader offset = .ok (value, next)

theorem Follows.pure (value : α) : Follows input (Pure.pure value) (Pure.pure value) :=
  fun offset h => Or.inr ⟨value, offset, h, rfl, rfl⟩

theorem Follows.bind {reader : Reader α} {parser : Parser α} {f : α → Reader γ} {g : α → Parser γ}
    (h : Follows input reader parser) (hf : ∀ value, Follows input (f value) (g value)) :
    Follows input (reader >>= f) (parser >>= g) := by
  intro offset ho
  have hread : (reader >>= f) offset = (reader offset).bind (fun r => f r.1 r.2) := rfl
  rcases h offset ho with ⟨hp, hr⟩ | ⟨value, next, hn, hp, hr⟩
  · left
    constructor
    · change (parser (input.drop offset)).bind (fun r => g r.1 r.2) = none
      rw [hp]
      rfl
    · rw [hread, hr]
      rfl
  · rw [bind_some hp, hread, hr]
    exact hf value next hn

theorem byteAt_eq {offset : ℕ} (h : offset < input.length) : byteAt input offset = .ok (input[offset], offset + 1) := by
  rw [byteAt, List.getElem?_eq_getElem h]

theorem take_drop_succ {offset : ℕ} (n : ℕ) (h : offset < input.length) :
    (input.drop offset).take (n + 1) = input[offset] :: (input.drop (offset + 1)).take n := by
  rw [List.drop_eq_getElem_cons h, List.take_succ_cons]

theorem gather_eq {w : ℕ} (n index offset : ℕ) (bits : BitVec w) (h : offset + n ≤ input.length) :
    gather input w n index bits offset =
      .ok (bits ||| ofLittleEndian index ((input.drop offset).take n), offset + n) := by
  induction n generalizing index offset bits with
  | zero => simp [gather, ofLittleEndian, Pure.pure, StateT.pure, Except.pure]
  | succ n ih =>
    have hbind : gather input w (n + 1) index bits offset = (byteAt input offset).bind
        (fun r => gather input w n (index + 1) (bits ||| r.1.setWidth w <<< (index * 8)) r.2) := rfl
    rw [hbind, byteAt_eq (by omega), take_drop_succ n (by omega), ofLittleEndian]
    dsimp only [Except.bind]
    rw [ih _ _ _ (by omega), BitVec.or_assoc, Nat.add_assoc, Nat.add_comm 1 n]

theorem copy_eq (n offset : ℕ) (h : offset + n ≤ input.length) :
    copy input n offset = .ok ((input.drop offset).take n, offset + n) := by
  induction n generalizing offset with
  | zero => simp [copy, Pure.pure, StateT.pure, Except.pure]
  | succ n ih =>
    have hbind : copy input (n + 1) offset =
        (byteAt input offset).bind (fun r => (copy input n r.2).bind (fun q => .ok (r.1 :: q.1, q.2))) := rfl
    rw [hbind, byteAt_eq (by omega), take_drop_succ n (by omega)]
    dsimp only [Except.bind]
    rw [ih _ (by omega), Nat.add_assoc, Nat.add_comm 1 n]

theorem Follows.guarded {n : ℕ} {reader : Reader α} {value : List (BitVec 8) → α}
    (h : ∀ offset, offset + n ≤ input.length → reader offset = .ok (value ((input.drop offset).take n), offset + n)) :
    Follows input (guarded input n reader) (value <$> take n) := by
  intro offset ho
  have hparse : (value <$> take n : Parser α) (input.drop offset) =
      (take n (input.drop offset)).bind (fun r => some (value r.1, r.2)) := rfl
  rw [hparse, take, List.length_drop, Cursor.guarded]
  by_cases hn : input.length - offset < n
  · left
    rw [if_pos hn, if_pos (Or.inr hn)]
    exact ⟨rfl, rfl⟩
  · right
    rw [if_neg hn, if_neg (by omega), h offset (by omega), List.drop_drop]
    exact ⟨_, offset + n, by omega, rfl, rfl⟩

theorem readLe_follows (w n : ℕ) : Follows input (readLe input w n) (Wire.readLe w n) := by
  apply Follows.guarded
  intro offset ho
  rw [gather_eq n 0 offset 0 ho]
  exact congrArg (fun bits => Except.ok (bits, offset + n)) (BitVec.zero_or)

theorem readString_follows : Follows input (readString input) Wire.readString := by
  refine (readLe_follows 32 4).bind (fun size => ?_)
  have h : Follows input (guarded input size.toNat (copy input size.toNat)) (id <$> take size.toNat) :=
    Follows.guarded (copy_eq size.toNat)
  rwa [id_map] at h

end PredictFun.Base.Cursor
