import PredictFun.Base.BigEndian

namespace PredictFun.Base.ContractAbi

open BigEndian

/-- How the values of a type are laid out. A strict decoder refuses what the encoder does not write. -/
structure Codec (α : Type) where
  dynamic : Bool
  -- the bytes of a static value
  width : ℕ
  valid : α → Prop
  encode : α → List (BitVec 8)
  decode : List (BitVec 8) → Option (α × List (BitVec 8))
  decode_encode : ∀ {a}, valid a → ∀ rest, decode (encode a ++ rest) = some (a, rest)
  length_encode : dynamic = false → ∀ {a}, valid a → (encode a).length = width

/-- A row of components: static ones stand in the head, dynamic ones in the tail, at the offset that the head has. -/
structure Fields (α : Type) where
  headSize : ℕ
  valid : α → Prop
  -- the heads of a value whose tails begin at an offset
  heads : ℕ → α → List (BitVec 8)
  tails : α → List (BitVec 8)
  -- read in a tuple from the heads at a position, with the next tail at an offset; the end of the tails comes back
  decode : List (BitVec 8) → ℕ → ℕ → Option (α × ℕ)
  length_heads : ∀ {a}, valid a → ∀ offset, (heads offset a).length = headSize
  decode_encode : ∀ {a}, valid a → ∀ before between after offset, offset = before.length + headSize + between.length →
    offset + (tails a).length < 256 ^ 32 →
    decode (before ++ (heads offset a ++ (between ++ (tails a ++ after)))) before.length offset =
      some (a, offset + (tails a).length)

def readWord (input : List (BitVec 8)) : Option (ℕ × List (BitVec 8)) :=
  if 32 ≤ input.length then some (ofBytes (input.take 32), input.drop 32) else none

theorem readWord_fixed {n : ℕ} (h : n < 256 ^ 32) (rest : List (BitVec 8)) : readWord (fixed 32 n ++ rest) = some (n, rest) := by
  have hl := length_fixed 32 n
  rw [readWord, if_pos (by rw [List.length_append]; omega), List.take_left' hl, List.drop_left' hl, ofBytes_fixed,
    Nat.mod_eq_of_lt h]

namespace Codec

def uint (bits : ℕ) (hb : bits ≤ 256) : Codec ℕ where
  dynamic := false
  width := 32
  valid n := n < 2 ^ bits
  encode n := fixed 32 n
  decode input := (readWord input).bind (fun (n, rest) => if n < 2 ^ bits then some (n, rest) else none)
  decode_encode := by
    intro n h rest
    have hlt : n < 256 ^ 32 :=
      calc n < 2 ^ bits := h
        _ ≤ 2 ^ 256 := Nat.pow_le_pow_right (by norm_num) hb
        _ = 256 ^ 32 := by norm_num
    rw [readWord_fixed hlt, Option.bind_some]
    exact if_pos h
  length_encode := fun _ {n} _ => length_fixed 32 n

def padded (size : ℕ) (hs : size ≤ 32) : Codec (List (BitVec 8)) where
  dynamic := false
  width := 32
  valid bytes := bytes.length = size
  encode bytes := List.replicate (32 - size) 0 ++ bytes
  decode input :=
    if 32 ≤ input.length ∧ input.take (32 - size) = List.replicate (32 - size) 0 then
      some ((input.take 32).drop (32 - size), input.drop 32)
    else none
  decode_encode := by
    intro bytes h rest
    have hl : (List.replicate (32 - size) (0 : BitVec 8) ++ bytes).length = 32 := by
      rw [List.length_append, List.length_replicate]
      omega
    rw [if_pos, List.take_left' hl, List.drop_left' hl, List.drop_left' List.length_replicate]
    refine ⟨by rw [List.length_append]; omega, ?_⟩
    rw [List.append_assoc, List.take_left' List.length_replicate]
  length_encode := by
    intro _ bytes h
    rw [List.length_append, List.length_replicate, h]
    omega

def filling (size : ℕ) : List (BitVec 8) := List.replicate ((32 - size % 32) % 32) 0

def bytes : Codec (List (BitVec 8)) where
  dynamic := true
  width := 32
  valid value := value.length < 256 ^ 32
  encode value := fixed 32 value.length ++ (value ++ filling value.length)
  decode input := (readWord input).bind (fun (size, rest) =>
    if size ≤ rest.length ∧ (rest.drop size).take (filling size).length = filling size then
      some (rest.take size, (rest.drop size).drop (filling size).length)
    else none)
  decode_encode := by
    intro value h rest
    rw [List.append_assoc, readWord_fixed h, Option.bind_some, List.append_assoc]
    dsimp only
    rw [List.drop_left, List.take_left, if_pos, List.take_left, List.drop_left]
    exact ⟨by simp, rfl⟩
  length_encode := fun h => nomatch h

end Codec

namespace Fields

variable {α β : Type}

def single (c : Codec α) : Fields α where
  headSize := if c.dynamic then 32 else c.width
  valid := c.valid
  heads offset a := if c.dynamic then fixed 32 offset else c.encode a
  tails a := if c.dynamic then c.encode a else []
  decode base position offset :=
    if c.dynamic then
      (readWord (base.drop position)).bind (fun (found, _) =>
        if found = offset then (c.decode (base.drop offset)).map (fun (a, rest) => (a, base.length - rest.length)) else none)
    else (c.decode (base.drop position)).map (fun (a, _) => (a, offset))
  length_heads := by
    intro a h offset
    cases hd : c.dynamic with
    | true => exact length_fixed 32 offset
    | false => exact c.length_encode hd h
  decode_encode := by
    intro a h before between after offset ho hs
    cases hd : c.dynamic with
    | true =>
      simp only [hd, if_true] at ho hs ⊢
      have hbase : (before ++ (fixed 32 offset ++ (between ++ (c.encode a ++ after)))).drop offset = c.encode a ++ after := by
        rw [← List.append_assoc, ← List.append_assoc]
        refine List.drop_left' ?_
        rw [List.length_append, List.length_append, length_fixed, ho]
      rw [List.drop_left, readWord_fixed (by omega), Option.bind_some]
      dsimp only
      rw [if_pos rfl, hbase, c.decode_encode h, Option.map_some]
      simp only [List.length_append, length_fixed]
      congr 2
      omega
    | false =>
      simp only [hd, Bool.false_eq_true, if_false] at ho hs ⊢
      rw [List.drop_left, c.decode_encode h]
      rfl

def append (f : Fields α) (g : Fields β) : Fields (α × β) where
  headSize := f.headSize + g.headSize
  valid a := f.valid a.1 ∧ g.valid a.2
  heads offset a := f.heads offset a.1 ++ g.heads (offset + (f.tails a.1).length) a.2
  tails a := f.tails a.1 ++ g.tails a.2
  decode base position offset :=
    (f.decode base position offset).bind (fun (a, next) =>
      (g.decode base (position + f.headSize) next).map (fun (b, last) => ((a, b), last)))
  length_heads := by
    intro a h offset
    rw [List.length_append, f.length_heads h.1, g.length_heads h.2]
  decode_encode := by
    intro a h before between after offset ho hs
    rw [List.length_append] at hs
    have hf := f.decode_encode h.1 before (g.heads (offset + (f.tails a.1).length) a.2 ++ between) (g.tails a.2 ++ after) offset
      (by rw [List.length_append, g.length_heads h.2]; omega) (by omega)
    have hg := g.decode_encode h.2 (before ++ f.heads offset a.1) (between ++ f.tails a.1) after
      (offset + (f.tails a.1).length) (by rw [List.length_append, List.length_append, f.length_heads h.1]; omega) (by omega)
    rw [List.length_append, f.length_heads h.1] at hg
    simp only [List.append_assoc] at hf hg ⊢
    rw [hf, Option.bind_some]
    dsimp only
    rw [hg, Option.map_some, List.length_append, Nat.add_assoc]

variable (f : Fields α)

def allHeads : ℕ → List α → List (BitVec 8)
  | _, [] => []
  | offset, a :: l => f.heads offset a ++ allHeads (offset + (f.tails a).length) l

def allDecode (base : List (BitVec 8)) : ℕ → ℕ → ℕ → Option (List α × ℕ)
  | 0, _, offset => some ([], offset)
  | n + 1, position, offset =>
    (f.decode base position offset).bind (fun (a, next) =>
      (allDecode base n (position + f.headSize) next).map (fun (l, last) => (a :: l, last)))

theorem length_allHeads {l : List α} (h : ∀ a ∈ l, f.valid a) (offset : ℕ) :
    (allHeads f offset l).length = l.length * f.headSize := by
  induction l generalizing offset with
  | nil => simp [allHeads]
  | cons a l ih =>
    rw [allHeads, List.length_append, f.length_heads (h a List.mem_cons_self),
      ih (fun b hb => h b (List.mem_cons_of_mem _ hb)), List.length_cons]
    ring

theorem allDecode_encode {l : List α} (h : ∀ a ∈ l, f.valid a) (before between after : List (BitVec 8)) (offset : ℕ)
    (ho : offset = before.length + l.length * f.headSize + between.length)
    (hs : offset + (l.flatMap f.tails).length < 256 ^ 32) :
    allDecode f (before ++ (allHeads f offset l ++ (between ++ (l.flatMap f.tails ++ after)))) l.length before.length offset =
      some (l, offset + (l.flatMap f.tails).length) := by
  -- each element reads its own tail; the heads before it and the tails before it go with what surrounds the rest
  induction l generalizing before between offset with
  | nil => simp [allDecode]
  | cons a l ih =>
    have ha := h a List.mem_cons_self
    have hl := fun b hb => h b (List.mem_cons_of_mem _ hb)
    simp only [List.length_cons, List.flatMap_cons, List.length_append] at ho hs ⊢
    have hmul : (l.length + 1) * f.headSize = l.length * f.headSize + f.headSize := by ring
    have hfirst := f.decode_encode ha before (allHeads f (offset + (f.tails a).length) l ++ between)
      (l.flatMap f.tails ++ after) offset (by rw [List.length_append, length_allHeads f hl]; omega) (by omega)
    have hrest := ih hl (before ++ f.heads offset a) (between ++ f.tails a) (offset + (f.tails a).length)
      (by rw [List.length_append, List.length_append, f.length_heads ha]; omega) (by omega)
    rw [List.length_append, f.length_heads ha] at hrest
    simp only [allHeads, List.append_assoc] at hfirst hrest ⊢
    rw [allDecode, hfirst, Option.bind_some]
    dsimp only
    rw [hrest, Option.map_some, Nat.add_assoc]

def all (n : ℕ) : Fields (List α) where
  headSize := n * f.headSize
  valid l := l.length = n ∧ ∀ a ∈ l, f.valid a
  heads := allHeads f
  tails l := l.flatMap f.tails
  decode base := allDecode f base n
  length_heads := by
    intro l h offset
    rw [length_allHeads f h.2, h.1]
  decode_encode := by
    rintro l ⟨rfl, h⟩ before between after offset ho hs
    exact allDecode_encode f h before between after offset ho hs

end Fields

namespace Codec

variable {α : Type}

def tuple (f : Fields α) : Codec α where
  dynamic := true
  width := 32
  valid a := f.valid a ∧ f.headSize + (f.tails a).length < 256 ^ 32
  encode a := f.heads f.headSize a ++ f.tails a
  decode input := (f.decode input 0 f.headSize).map (fun (a, last) => (a, input.drop last))
  decode_encode := by
    intro a h rest
    have hd := f.decode_encode h.1 [] [] rest f.headSize (by simp) h.2
    simp only [List.nil_append, List.length_nil] at hd
    rw [List.append_assoc, hd, Option.map_some, ← List.append_assoc]
    dsimp only
    rw [List.drop_left']
    rw [List.length_append, f.length_heads h.1]
  length_encode := fun h => nomatch h

def array (c : Codec α) : Codec (List α) where
  dynamic := true
  width := 32
  valid l := l.length < 256 ^ 32 ∧ (tuple ((Fields.single c).all l.length)).valid l
  encode l := fixed 32 l.length ++ (tuple ((Fields.single c).all l.length)).encode l
  decode input := (readWord input).bind (fun (n, rest) => (tuple ((Fields.single c).all n)).decode rest)
  decode_encode := by
    intro l h rest
    rw [List.append_assoc, readWord_fixed h.1, Option.bind_some]
    exact (tuple ((Fields.single c).all l.length)).decode_encode h.2 rest
  length_encode := fun h => nomatch h

end Codec

def decodeArguments {α : Type} (f : Fields α) (input : List (BitVec 8)) : Option α :=
  match (Codec.tuple f).decode input with
  | some (a, []) => some a
  | _ => none

theorem decodeArguments_encode {α : Type} {f : Fields α} {a : α} (h : (Codec.tuple f).valid a) :
    decodeArguments f ((Codec.tuple f).encode a) = some a := by
  have hd := (Codec.tuple f).decode_encode h []
  rw [List.append_nil] at hd
  rw [decodeArguments, hd]

end PredictFun.Base.ContractAbi
