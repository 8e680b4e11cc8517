import Mathlib

namespace PredictFun.Base.Positional

variable {δ : Type} (val : δ → ℕ) (b : ℕ)

def value (ds : List δ) : ℕ := ds.foldl (fun n d => b * n + val d) 0

def fraction (ds : List δ) : ℚ := value val b ds / (b : ℚ) ^ ds.length

theorem foldl_value (n : ℕ) (ds : List δ) :
    ds.foldl (fun n d => b * n + val d) n = n * b ^ ds.length + value val b ds := by
  induction ds generalizing n with
  | nil => simp [value]
  | cons d ds ih =>
    simp only [value, List.foldl_cons, List.length_cons] at ih ⊢
    rw [ih (b * n + val d), ih (b * 0 + val d)]
    ring

theorem value_append (as bs : List δ) :
    value val b (as ++ bs) = value val b as * b ^ bs.length + value val b bs := by
  rw [value, List.foldl_append, foldl_value]
  rfl

theorem value_cons (d : δ) (ds : List δ) : value val b (d :: ds) = val d * b ^ ds.length + value val b ds := by
  rw [value, List.foldl_cons, foldl_value]
  simp

theorem value_lt (ds : List δ) (h : ∀ d ∈ ds, val d < b) : value val b ds < b ^ ds.length := by
  induction ds with
  | nil => simp [value]
  | cons d ds ih =>
    have hd := h d (by simp)
    have ht := ih (fun x hx => h x (List.mem_cons_of_mem _ hx))
    rw [value_cons, List.length_cons, pow_succ']
    calc val d * b ^ ds.length + value val b ds < val d * b ^ ds.length + b ^ ds.length := by omega
      _ = (val d + 1) * b ^ ds.length := by ring
      _ ≤ b * b ^ ds.length := Nat.mul_le_mul_right _ hd

theorem le_value_of_head (d : δ) (ds : List δ) (hd : val d ≠ 0) : b ^ ds.length ≤ value val b (d :: ds) := by
  rw [value_cons]
  have : 1 * b ^ ds.length ≤ val d * b ^ ds.length := Nat.mul_le_mul_right _ (by omega)
  omega

theorem value_reverse (ds : List δ) : value val b ds.reverse = Nat.ofDigits b (ds.map val) := by
  induction ds with
  | nil => rfl
  | cons d ds ih =>
    rw [List.reverse_cons, value_append, ih, List.map_cons, Nat.ofDigits_cons]
    simp [value]
    ring

def written (rep : ℕ → δ) (n : ℕ) : List δ := (Nat.digits b n).reverse.map rep

section

variable {val b} {rep : ℕ → δ}

theorem value_written (hb : 1 < b) (h : ∀ d < b, val (rep d) = d) (n : ℕ) : value val b (written b rep n) = n := by
  rw [written, List.map_reverse, value_reverse, List.map_map]
  have hdigits : (Nat.digits b n).map (val ∘ rep) = Nat.digits b n :=
    (List.map_congr_left (fun d hd => h d (Nat.digits_lt_base hb hd))).trans (List.map_id _)
  rw [hdigits, Nat.ofDigits_digits]

theorem written_value (hb : 1 < b) {ds : List δ} (hd : ∀ d ∈ ds, val d < b)
    (hhead : ∀ d, ds.head? = some d → val d ≠ 0) : written b rep (value val b ds) = ds.map (fun d => rep (val d)) := by
  have hdigits : Nat.digits b (value val b ds) = ds.reverse.map val := by
    conv_lhs => rw [← List.reverse_reverse ds]
    rw [value_reverse]
    refine Nat.digits_ofDigits b hb _ (fun l hl => ?_) (fun hn => ?_)
    · obtain ⟨d, hm, rfl⟩ := List.mem_map.mp hl
      exact hd d (List.mem_reverse.mp hm)
    · cases ds with
      | nil => simp at hn
      | cons d ds =>
        simp only [List.reverse_cons, List.map_append, List.map_cons, List.map_nil, List.getLast_append_singleton]
        exact hhead d rfl
  rw [written, hdigits, ← List.map_reverse, List.reverse_reverse, List.map_map]
  rfl

theorem written_head (hb : 1 < b) (h : ∀ d < b, val (rep d) = d) {n : ℕ} {d : δ} (hd : (written b rep n).head? = some d) :
    val d ≠ 0 := by
  rw [written, List.head?_map, List.head?_reverse, Option.map_eq_some_iff] at hd
  obtain ⟨last, hl, rfl⟩ := hd
  rw [h last (Nat.digits_lt_base hb (List.mem_of_getLast? hl))]
  have hn : n ≠ 0 := by
    rintro rfl
    simp at hl
  rw [List.getLast?_eq_some_getLast (Nat.digits_ne_nil_iff_ne_zero.mpr hn)] at hl
  rw [← Option.some.inj hl]
  exact Nat.getLast_digit_ne_zero b hn

end

theorem map_eq_of_value_eq (hb : 1 < b) {as bs : List δ} (hl : as.length = bs.length) (ha : ∀ d ∈ as, val d < b)
    (hs : ∀ d ∈ bs, val d < b) (h : value val b as = value val b bs) : as.map val = bs.map val := by
  rw [← List.reverse_reverse as, ← List.reverse_reverse bs, value_reverse, value_reverse] at h
  have hdigits {ds : List δ} (hd : ∀ d ∈ ds, val d < b) : ∀ n ∈ ds.reverse.map val, n < b := by
    intro n hn
    obtain ⟨d, hm, rfl⟩ := List.mem_map.mp hn
    exact hd d (List.mem_reverse.mp hm)
  have he := Nat.ofDigits_inj_of_len_eq hb (by simpa using hl) (hdigits ha) (hdigits hs) h
  rw [List.map_reverse, List.map_reverse] at he
  exact List.reverse_injective he

theorem value_lt_of_lex [LT δ] (as bs : List δ) (hval : ∀ x ∈ as, ∀ y, x < y → val x < val y)
    (hl : as.length = bs.length) (ha : ∀ d ∈ as, val d < b) (h : as < bs) : value val b as < value val b bs := by
  induction as generalizing bs with
  | nil =>
    have hb : bs = [] := List.length_eq_zero_iff.mp hl.symm
    subst hb
    exact absurd h (List.not_lt_nil _)
  | cons x xs ih =>
    cases bs with
    | nil => cases hl
    | cons y ys =>
      have hlen : xs.length = ys.length := by simpa using hl
      rw [value_cons, value_cons, hlen]
      rcases List.cons_lt_cons_iff.mp h with hxy | ⟨rfl, hs⟩
      · have hx := value_lt val b xs (fun d hd => ha d (List.mem_cons_of_mem _ hd))
        have hv := hval x (by simp) y hxy
        rw [hlen] at hx
        calc val x * b ^ ys.length + value val b xs < val x * b ^ ys.length + b ^ ys.length := by omega
          _ = (val x + 1) * b ^ ys.length := by ring
          _ ≤ val y * b ^ ys.length := Nat.mul_le_mul_right _ hv
          _ ≤ _ := Nat.le_add_right _ _
      · have := ih ys (fun d hd => hval d (List.mem_cons_of_mem _ hd)) hlen
          (fun d hd => ha d (List.mem_cons_of_mem _ hd)) hs
        omega

theorem fraction_cons (hb : 0 < b) (d : δ) (ds : List δ) :
    fraction val b (d :: ds) = (val d + fraction val b ds) / b := by
  have hb' : (b : ℚ) ≠ 0 := by positivity
  have hp : (b : ℚ) ^ ds.length ≠ 0 := pow_ne_zero _ hb'
  rw [fraction, fraction, value_cons, List.length_cons, pow_succ]
  push_cast
  field_simp

theorem fraction_nonneg (ds : List δ) : 0 ≤ fraction val b ds := by
  unfold fraction
  positivity

theorem fraction_lt_one (hb : 0 < b) (ds : List δ) (h : ∀ d ∈ ds, val d < b) : fraction val b ds < 1 := by
  rw [fraction, div_lt_one (by positivity)]
  exact_mod_cast value_lt val b ds h

theorem fraction_append_zero (hb : 0 < b) (ds : List δ) (z : δ) (hz : val z = 0) :
    fraction val b (ds ++ [z]) = fraction val b ds := by
  have hb' : (b : ℚ) ≠ 0 := by positivity
  have hp : (b : ℚ) ^ ds.length ≠ 0 := pow_ne_zero _ hb'
  have hv : value val b [z] = 0 := by simp [value, hz]
  rw [fraction, fraction, value_append, hv, List.length_append, pow_add]
  push_cast
  field_simp
  simp

theorem value_add_fraction (hb : 0 < b) (as bs : List δ) :
    (value val b as : ℚ) + fraction val b bs = value val b (as ++ bs) / (b : ℚ) ^ bs.length := by
  have hp : (b : ℚ) ^ bs.length ≠ 0 := pow_ne_zero _ (by positivity)
  rw [fraction, value_append]
  push_cast
  field_simp

end PredictFun.Base.Positional
