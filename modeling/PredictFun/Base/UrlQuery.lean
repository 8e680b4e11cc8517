import Mathlib

namespace PredictFun.Base

namespace Percent

def sign : BitVec 8 := 0x25

/-- Characters that stand for themselves. The percent sign never does. -/
structure Kept where
  keep : BitVec 8 → Bool
  percent : keep sign = false

def digit (n : ℕ) : BitVec 8 := if n < 10 then BitVec.ofNat 8 (0x30 + n) else BitVec.ofNat 8 (0x37 + n)

def digitValue (c : BitVec 8) : Option ℕ :=
  if 0x30 ≤ c.toNat ∧ c.toNat ≤ 0x39 then some (c.toNat - 0x30)
  else if 0x41 ≤ c.toNat ∧ c.toNat ≤ 0x46 then some (c.toNat - 0x37)
  else if 0x61 ≤ c.toNat ∧ c.toNat ≤ 0x66 then some (c.toNat - 0x57)
  else none

def encode (kept : Kept) (value : List (BitVec 8)) : List (BitVec 8) :=
  value.flatMap fun c => if kept.keep c then [c] else [sign, digit (c.toNat >>> 4 &&& 15), digit (c.toNat &&& 15)]

def decode : List (BitVec 8) → Option (List (BitVec 8))
  | [] => some []
  | c :: rest =>
    if c = sign then
      match rest with
      | high :: low :: rest => do
        let h ← digitValue high
        let l ← digitValue low
        let value ← decode rest
        some (BitVec.ofNat 8 (16 * h + l) :: value)
      | _ => none
    else (decode rest).map (c :: ·)

variable (kept : Kept)

theorem digitValue_digit {n : ℕ} (h : n < 16) : digitValue (digit n) = some n := by
  interval_cases n <;> decide

theorem high_lt (c : BitVec 8) : c.toNat >>> 4 &&& 15 < 16 := Nat.lt_of_le_of_lt Nat.and_le_right (by decide)

theorem low_lt (c : BitVec 8) : c.toNat &&& 15 < 16 := Nat.lt_of_le_of_lt Nat.and_le_right (by decide)

theorem ofNat_nibbles (c : BitVec 8) : BitVec.ofNat 8 (16 * (c.toNat >>> 4 &&& 15) + (c.toNat &&& 15)) = c := by
  have hc := c.isLt
  have hhigh : c.toNat >>> 4 &&& 15 = c.toNat / 16 % 16 := by
    rw [Nat.shiftRight_eq_div_pow]
    exact Nat.and_two_pow_sub_one_eq_mod _ 4
  have hlow : c.toNat &&& 15 = c.toNat % 16 := Nat.and_two_pow_sub_one_eq_mod _ 4
  apply BitVec.eq_of_toNat_eq
  rw [BitVec.toNat_ofNat, hhigh, hlow]
  omega

variable {c : BitVec 8}

theorem decode_cons (h : c ≠ sign) (rest : List (BitVec 8)) : decode (c :: rest) = (decode rest).map (c :: ·) := by
  match rest with
  | [] | [_] | _ :: _ :: _ => simp [decode, h]

theorem decode_triplet {high low : BitVec 8} {h l : ℕ} (hh : digitValue high = some h) (hl : digitValue low = some l)
    (rest : List (BitVec 8)) :
    decode (sign :: high :: low :: rest) = (decode rest).map (BitVec.ofNat 8 (16 * h + l) :: ·) := by
  rw [decode, if_pos rfl, hh, hl]
  cases decode rest <;> rfl

theorem encode_kept (h : kept.keep c = true) (value : List (BitVec 8)) :
    encode kept (c :: value) = c :: encode kept value := by
  simp [encode, h]

theorem encode_escaped (h : kept.keep c = false) (value : List (BitVec 8)) :
    encode kept (c :: value) = sign :: digit (c.toNat >>> 4 &&& 15) :: digit (c.toNat &&& 15) :: encode kept value := by
  simp [encode, h]

theorem decode_encode (value : List (BitVec 8)) : decode (encode kept value) = some value := by
  induction value with
  | nil => rfl
  | cons c value ih =>
    cases hc : kept.keep c with
    | false =>
      rw [encode_escaped kept hc, decode_triplet (digitValue_digit (high_lt c)) (digitValue_digit (low_lt c)), ih,
        ofNat_nibbles, Option.map_some]
    | true =>
      have hne : c ≠ sign := by
        rintro rfl
        rw [kept.percent] at hc
        cases hc
      rw [encode_kept kept hc, decode_cons hne, ih, Option.map_some]

theorem encode_induction {P : List (BitVec 8) → Prop} (hnil : P [])
    (hkept : ∀ c rest, kept.keep c = true → P rest → P (c :: rest))
    (hescaped : ∀ n m rest, n < 16 → m < 16 → P rest → P (sign :: digit n :: digit m :: rest)) (value : List (BitVec 8)) :
    P (encode kept value) := by
  induction value with
  | nil => exact hnil
  | cons c value ih =>
    cases hc : kept.keep c with
    | false =>
      rw [encode_escaped kept hc]
      exact hescaped _ _ _ (high_lt c) (low_lt c) ih
    | true =>
      rw [encode_kept kept hc]
      exact hkept c _ hc ih

theorem notMem_encode {mark : BitVec 8} (hm : kept.keep mark = false) (hp : mark ≠ sign)
    (hd : digitValue mark = none) (value : List (BitVec 8)) : mark ∉ encode kept value := by
  have hdigit : ∀ n < 16, mark ≠ digit n := by
    rintro n hn rfl
    rw [digitValue_digit hn] at hd
    cases hd
  apply encode_induction kept (P := fun text => mark ∉ text)
  · exact List.not_mem_nil
  · intro c rest hc ih
    rw [List.mem_cons, not_or]
    refine ⟨?_, ih⟩
    rintro rfl
    rw [hc] at hm
    cases hm
  · intro n m rest hn hm' ih
    simp only [List.mem_cons, not_or]
    exact ⟨hp, hdigit n hn, hdigit m hm', ih⟩

end Percent

namespace Query

theorem intercalate_cons {α : Type} (mark : α) (part : List α) (parts : List (List α)) :
    [mark].intercalate (part :: parts) = part ++ parts.flatMap (mark :: ·) := by
  induction parts generalizing part with
  | nil => simp
  | cons next parts ih => simp [List.intercalate_cons_cons, ih]

theorem intercalate_injective {α : Type} [DecidableEq α] {mark : α} {parts others : List (List α)}
    (hp : ∀ part ∈ parts, mark ∉ part) (ho : ∀ part ∈ others, mark ∉ part) (hne : parts ≠ []) (hne' : others ≠ [])
    (h : [mark].intercalate parts = [mark].intercalate others) : parts = others := by
  rw [← List.splitOn_intercalate mark hp hne, h, List.splitOn_intercalate mark ho hne']

variable {α β : Type} [DecidableEq α]

structure Format (α : Type) where
  question : α
  ampersand : α
  equals : α
  encode : List α → List α
  decode : List α → Option (List α)
  distinct : ampersand ≠ equals
  decode_encode : ∀ value, decode (encode value) = some value
  ampersand_notMem : ∀ value, ampersand ∉ encode value
  equals_notMem : ∀ value, equals ∉ encode value

namespace Format

variable (f : Format α)

def spell (parameter : List α × List α) : List α := parameter.1 ++ f.equals :: f.encode parameter.2

def add (text : List α) (parameter : List α × List α) : List α :=
  text ++ (if f.question ∈ text then f.ampersand else f.question) :: f.spell parameter

def readParameter (text : List α) : Option (List α × List α) :=
  match text.splitOn f.equals with
  | [name, value] => (f.decode value).map (name, ·)
  | _ => none

def read (text : List α) : Option (List α × List (List α × List α)) :=
  match text.dropWhile (· ≠ f.question) with
  | [] => some (text, [])
  | _ :: query => ((query.splitOn f.ampersand).mapM f.readParameter).map (text.takeWhile (· ≠ f.question), ·)

structure Name (name : List α) : Prop where
  ampersand : f.ampersand ∉ name
  equals : f.equals ∉ name

variable {f}

theorem Name.readParameter_spell {name : List α} (h : f.Name name) (value : List α) :
    f.readParameter (f.spell (name, value)) = some (name, value) := by
  have hparts : ∀ part ∈ [name, f.encode value], f.equals ∉ part := by
    simpa using ⟨h.equals, f.equals_notMem value⟩
  have hsplit := List.splitOn_intercalate f.equals hparts (by simp)
  have hspell : [f.equals].intercalate [name, f.encode value] = f.spell (name, value) := by simp [spell]
  rw [hspell] at hsplit
  rw [readParameter, hsplit]
  simp only [f.decode_encode, Option.map_some]

omit [DecidableEq α] in
theorem Name.ampersand_notMem_spell {name : List α} (h : f.Name name) (value : List α) :
    f.ampersand ∉ f.spell (name, value) := by
  simp only [spell, List.mem_append, List.mem_cons, not_or]
  exact ⟨h.ampersand, f.distinct, f.ampersand_notMem value⟩

theorem foldl_add_of_mem (parameters : List (List α × List α)) {text : List α} (h : f.question ∈ text) :
    parameters.foldl f.add text = text ++ (parameters.map f.spell).flatMap (f.ampersand :: ·) := by
  induction parameters generalizing text with
  | nil => simp
  | cons parameter parameters ih =>
    have hadd : f.add text parameter = text ++ f.ampersand :: f.spell parameter := by rw [add, if_pos h]
    rw [List.foldl_cons, hadd, ih (List.mem_append_left _ h)]
    simp

variable {path : List α}

theorem foldl_add (hp : f.question ∉ path) (parameter : List α × List α)
    (parameters : List (List α × List α)) : (parameter :: parameters).foldl f.add path =
      path ++ f.question :: [f.ampersand].intercalate ((parameter :: parameters).map f.spell) := by
  have hadd : f.add path parameter = path ++ f.question :: f.spell parameter := by rw [add, if_neg hp]
  rw [List.foldl_cons, hadd, foldl_add_of_mem parameters (by simp), List.map_cons, intercalate_cons]
  simp

theorem mapM_readParameter {parameters : List (List α × List α)} (h : ∀ parameter ∈ parameters, f.Name parameter.1) :
    (parameters.map f.spell).mapM f.readParameter = some parameters := by
  induction parameters with
  | nil => rfl
  | cons parameter parameters ih =>
    simp only [List.mem_cons, forall_eq_or_imp] at h
    rw [List.map_cons, List.mapM_cons, h.1.readParameter_spell parameter.2, ih h.2]
    rfl

theorem takeWhile_path (hp : f.question ∉ path) (query : List α) :
    (path ++ f.question :: query).takeWhile (· ≠ f.question) = path ∧
      (path ++ f.question :: query).dropWhile (· ≠ f.question) = f.question :: query := by
  have hall : ∀ c ∈ path, decide (c ≠ f.question) = true := by
    intro c hc
    simpa using ne_of_mem_of_not_mem hc hp
  rw [List.takeWhile_append_of_pos hall, List.dropWhile_append_of_pos hall]
  simp

theorem read_foldl_add (hp : f.question ∉ path) {parameters : List (List α × List α)}
    (h : ∀ parameter ∈ parameters, f.Name parameter.1) : f.read (parameters.foldl f.add path) = some (path, parameters) := by
  cases parameters with
  | nil =>
    have hdrop : path.dropWhile (· ≠ f.question) = [] := by
      rw [List.dropWhile_eq_nil_iff]
      intro c hc
      simpa using ne_of_mem_of_not_mem hc hp
    rw [List.foldl_nil, read, hdrop]
  | cons parameter parameters =>
    have hparts : ∀ part ∈ (parameter :: parameters).map f.spell, f.ampersand ∉ part := by
      intro part hm
      obtain ⟨other, ho, rfl⟩ := List.mem_map.mp hm
      exact (h other ho).ampersand_notMem_spell other.2
    have hsplit := List.splitOn_intercalate f.ampersand hparts (by simp)
    obtain ⟨htake, hdrop⟩ := takeWhile_path hp ([f.ampersand].intercalate ((parameter :: parameters).map f.spell))
    rw [foldl_add hp, read, hdrop, htake]
    simp only [hsplit, mapM_readParameter h, Option.map_some]

end Format

def supplied (slots : List (α × List β)) : List (α × β) := slots.flatMap fun slot => slot.2.map (slot.1, ·)

omit [DecidableEq α] in
theorem supplied_cons (name : α) (values : List β) (slots : List (α × List β)) :
    supplied ((name, values) :: slots) = values.map (name, ·) ++ supplied slots := rfl

omit [DecidableEq α] in
theorem mem_supplied {slots : List (α × List β)} {parameter : α × β} (h : parameter ∈ supplied slots) :
    parameter.1 ∈ slots.map Prod.fst := by
  obtain ⟨slot, hs, hm⟩ := List.mem_flatMap.mp h
  obtain ⟨value, -, rfl⟩ := List.mem_map.mp hm
  exact List.mem_map_of_mem hs

theorem filter_supplied {name : α} (values : List β) {slots : List (α × List β)} (h : name ∉ slots.map Prod.fst) :
    (supplied ((name, values) :: slots)).filter (·.1 = name) = values.map (name, ·) := by
  rw [supplied_cons, List.filter_append]
  have hself : (values.map (name, ·)).filter (·.1 = name) = values.map (name, ·) := by
    rw [List.filter_eq_self]
    intro parameter hm
    obtain ⟨value, -, rfl⟩ := List.mem_map.mp hm
    simp
  have hrest : (supplied slots).filter (·.1 = name) = [] := by
    rw [List.filter_eq_nil_iff]
    intro parameter hm he
    exact h (of_decide_eq_true he ▸ mem_supplied hm)
  rw [hself, hrest, List.append_nil]

theorem supplied_inj {slots others : List (α × List β)} (hnames : slots.map Prod.fst = others.map Prod.fst)
    (hnodup : (slots.map Prod.fst).Nodup) (h : supplied slots = supplied others) : slots = others := by
  induction slots generalizing others with
  | nil => exact (List.map_eq_nil_iff.mp hnames.symm).symm
  | cons slot slots ih =>
    obtain ⟨name, values⟩ := slot
    cases others with
    | nil => cases hnames
    | cons other others =>
      obtain ⟨name', values'⟩ := other
      simp only [List.map_cons, List.cons.injEq] at hnames
      obtain ⟨rfl, hnames⟩ := hnames
      have hnew := (List.nodup_cons.mp hnodup).1
      have hfilter := congrArg (List.filter (·.1 = name)) h
      rw [filter_supplied values hnew, filter_supplied values' (hnames ▸ hnew)] at hfilter
      obtain rfl : values = values' := List.map_injective_iff.mpr (fun _ _ he => (Prod.mk.inj he).2) hfilter
      rw [supplied_cons, supplied_cons] at h
      rw [ih hnames (List.nodup_cons.mp hnodup).2 (List.append_cancel_left h)]

end Query

end PredictFun.Base
