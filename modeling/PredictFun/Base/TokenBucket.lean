import Mathlib

namespace PredictFun.Base.TokenBucket

variable {K : Type*} [LinearOrder K]

def within (times : List K) (x y : K) : ℕ :=
  times.countP (fun time => decide (x ≤ time ∧ time ≤ y))

theorem within_append (times : List K) (time x y : K) :
    within (times ++ [time]) x y = within times x y + if x ≤ time ∧ time ≤ y then 1 else 0 := by
  simp [within, List.countP_append, List.countP_singleton]

theorem within_eq_of_past {times : List K} {updated x y : K} (hp : ∀ time ∈ times, time ≤ updated)
    (hy : updated ≤ y) : within times x y = within times x updated := by
  apply List.countP_congr
  intro time hm
  have := hp time hm
  simp [this, this.trans hy]

theorem within_eq_zero {times : List K} {updated x y : K} (hp : ∀ time ∈ times, time ≤ updated)
    (hx : updated < x) : within times x y = 0 := by
  apply List.countP_eq_zero.mpr
  intro time hm
  have := hp time hm
  simp only [decide_eq_true_eq, not_and]
  intro h
  exact absurd (h.trans this) (not_le.mpr hx)

variable [Field K]

def Budgeted (capacity rate : K) (times : List K) : Prop :=
  ∀ x y, x ≤ y → (within times x y : K) ≤ capacity + (y - x) * rate

def filled (capacity rate tokens updated now : K) : K :=
  min capacity (tokens + (now - updated) * rate)

/-- What a bucket guarantees about the instants at which its tokens were spent.  The tokens still there
pay for the part of every window that has not been used up to `updated`. -/
structure Metered (capacity rate : K) (times : List K) (tokens updated : K) : Prop where
  rate_nonneg : 0 ≤ rate
  tokens_nonneg : 0 ≤ tokens
  tokens_le : tokens ≤ capacity
  past : ∀ time ∈ times, time ≤ updated
  paid : ∀ x ≤ updated, (within times x updated : K) + tokens ≤ capacity + (updated - x) * rate
  budgeted : Budgeted capacity rate times

section

variable {capacity rate tokens updated now : K}

theorem filled_le : filled capacity rate tokens updated now ≤ capacity := min_le_left _ _

theorem filled_self (ht : tokens ≤ capacity) : filled capacity rate tokens updated updated = tokens := by
  simp [filled, ht]

variable [IsStrictOrderedRing K]

theorem filled_mono {later : K} (hr : 0 ≤ rate) (hn : now ≤ later) :
    filled capacity rate tokens updated now ≤ filled capacity rate tokens updated later := by
  unfold filled
  gcongr

theorem filled_filled {later : K} (hr : 0 ≤ rate) (hn : now ≤ later) :
    filled capacity rate (filled capacity rate tokens updated now) now later
      = filled capacity rate tokens updated later := by
  have hgain : 0 ≤ (later - now) * rate := mul_nonneg (sub_nonneg.mpr hn) hr
  have hsplit : tokens + (later - updated) * rate
      = tokens + (now - updated) * rate + (later - now) * rate := by ring
  simp only [filled]
  rw [hsplit, ← min_add_add_right, ← min_assoc, min_eq_left (le_add_of_nonneg_right hgain)]

end

namespace Metered

variable [IsStrictOrderedRing K] {capacity rate tokens updated now : K} {times : List K}

theorem start (hr : 0 ≤ rate) (hc : 0 ≤ capacity) : Metered capacity rate [] capacity updated where
  rate_nonneg := hr
  tokens_nonneg := hc
  tokens_le := le_refl _
  past := by simp
  paid := by
    intro x hx
    have := mul_nonneg (sub_nonneg.mpr hx) hr
    simpa [within] using this
  budgeted := by
    intro x y hxy
    have := mul_nonneg (sub_nonneg.mpr hxy) hr
    simp only [within, List.countP_nil, Nat.cast_zero]
    linarith

theorem refill (h : Metered capacity rate times tokens updated) (hn : updated ≤ now) :
    Metered capacity rate times (filled capacity rate tokens updated now) now where
  rate_nonneg := h.rate_nonneg
  tokens_nonneg :=
    le_min (h.tokens_nonneg.trans h.tokens_le)
      (add_nonneg h.tokens_nonneg (mul_nonneg (sub_nonneg.mpr hn) h.rate_nonneg))
  tokens_le := filled_le
  past := fun time hm => (h.past time hm).trans hn
  paid := by
    intro x hx
    rcases le_or_gt x updated with hu | hu
    · -- the part of the window that the bucket already knew, and the refill of the rest
      have hknown := h.paid x hu
      have hgain : filled capacity rate tokens updated now ≤ tokens + (now - updated) * rate := min_le_right _ _
      rw [within_eq_of_past h.past hn]
      linarith
    · have hfull : filled capacity rate tokens updated now ≤ capacity := filled_le
      have := mul_nonneg (sub_nonneg.mpr hx) h.rate_nonneg
      rw [within_eq_zero h.past hu]
      simp only [Nat.cast_zero]
      linarith
  budgeted := h.budgeted

theorem spend (h : Metered capacity rate times tokens updated) (ht : 1 ≤ tokens) :
    Metered capacity rate (times ++ [updated]) (tokens - 1) updated where
  rate_nonneg := h.rate_nonneg
  tokens_nonneg := sub_nonneg.mpr ht
  tokens_le := (sub_le_self _ zero_le_one).trans h.tokens_le
  past := by
    simp only [List.mem_append, List.mem_singleton]
    rintro time (hm | rfl)
    · exact h.past time hm
    · exact le_refl _
  paid := by
    intro x hx
    have := h.paid x hx
    rw [within_append, if_pos ⟨hx, le_refl _⟩]
    push_cast
    linarith
  budgeted := by
    intro x y hxy
    rw [within_append]
    split_ifs with hin
    · -- every instant so far is before `y`, and the token spent now was there
      have hpaid := h.paid x hin.1
      have hrest := mul_nonneg (sub_nonneg.mpr hin.2) h.rate_nonneg
      rw [within_eq_of_past h.past hin.2]
      push_cast
      linarith
    · simpa using h.budgeted x y hxy

end Metered

end PredictFun.Base.TokenBucket
