import Mathlib

namespace PredictFun.Base.Runs

variable {κ σ : Type} (step : σ → κ → σ)

def run (s : σ) (inputs : List κ) : σ := inputs.foldl step s

def Along (Q : σ → κ → Prop) : σ → List κ → Prop
  | _, [] => True
  | s, input :: inputs => Q s input ∧ Along Q (step s input) inputs

@[simp] theorem run_nil (s : σ) : run step s [] = s := rfl

@[simp] theorem run_cons (s : σ) (input : κ) (inputs : List κ) :
    run step s (input :: inputs) = run step (step s input) inputs := rfl

theorem run_append (s : σ) (first second : List κ) :
    run step s (first ++ second) = run step (run step s first) second := List.foldl_append

theorem along_append (Q : σ → κ → Prop) (s : σ) (first second : List κ) :
    Along step Q s (first ++ second) ↔ Along step Q s first ∧ Along step Q (run step s first) second := by
  induction first generalizing s with
  | nil => simp [Along]
  | cons input inputs ih => simp only [List.cons_append, Along, ih, run_cons, and_assoc]

theorem along_iff (Q : σ → κ → Prop) (s : σ) (inputs : List κ) :
    Along step Q s inputs ↔ ∀ before input, before ++ [input] <+: inputs → Q (run step s before) input := by
  constructor
  · rintro h before input ⟨later, rfl⟩
    exact ((along_append step Q s before [input]).mp ((along_append step Q s _ later).mp h).1).2.1
  · intro h
    induction inputs generalizing s with
    | nil => trivial
    | cons input inputs ih =>
      refine ⟨h [] input ⟨inputs, rfl⟩, ih _ ?_⟩
      rintro before next ⟨later, rfl⟩
      exact h (input :: before) next ⟨later, rfl⟩

variable {s : σ} {inputs : List κ}

theorem along_and {Q R : σ → κ → Prop} (hq : Along step Q s inputs)
    (hr : Along step R s inputs) : Along step (fun s input => Q s input ∧ R s input) s inputs := by
  induction inputs generalizing s with
  | nil => trivial
  | cons input inputs ih => exact ⟨⟨hq.1, hr.1⟩, ih hq.2 hr.2⟩

theorem along_mono {Q R : σ → κ → Prop} (h : ∀ s input, Q s input → R s input)
    (hq : Along step Q s inputs) : Along step R s inputs := by
  induction inputs generalizing s with
  | nil => trivial
  | cons input inputs ih => exact ⟨h s input hq.1, ih hq.2⟩

theorem run_invariant {Q : σ → κ → Prop} {I : σ → Prop} (hstep : ∀ s input, I s → Q s input → I (step s input))
    (hs : I s) (h : Along step Q s inputs) : I (run step s inputs) := by
  induction inputs generalizing s with
  | nil => exact hs
  | cons input inputs ih => exact ih (hstep s input hs h.1) h.2

theorem kept_iff (I : σ → Prop) (s : σ) (inputs : List κ) :
    (∀ before after, before ++ after <+: inputs → I (run step s before) → I (run step s (before ++ after))) ↔
      Along step (fun s input => I s → I (step s input)) s inputs := by
  constructor
  · intro h
    rw [along_iff]
    intro before input hp hs
    have := h before [input] hp hs
    rwa [run_append] at this
  · rintro h before after ⟨later, rfl⟩ hs
    rw [run_append]
    have ha := ((along_append step _ s before after).mp ((along_append step _ s _ later).mp h).1).2
    exact run_invariant step (fun _ _ hi hq => hq hi) hs ha

theorem along_of_forall {D : κ → Prop} (h : ∀ input ∈ inputs, D input) (s : σ) :
    Along step (fun _ input => D input) s inputs := by
  induction inputs generalizing s with
  | nil => trivial
  | cons input inputs ih =>
    simp only [List.mem_cons, forall_eq_or_imp] at h
    exact ⟨h.1, ih h.2 _⟩

theorem along_true (s : σ) (inputs : List κ) : Along step (fun _ _ => True) s inputs :=
  along_of_forall step (fun _ _ => trivial) s

theorem along_of_inits {C : σ → Prop} (h : ∀ before ∈ inputs.dropLast.inits, C (run step s before)) :
    Along step (fun s _ => C s) s inputs := by
  rw [along_iff]
  rintro before input ⟨later, rfl⟩
  refine h before ((List.mem_inits _ _).mpr ?_)
  rw [List.append_assoc, List.dropLast_append_of_ne_nil (by simp)]
  exact List.prefix_append ..

/-- When the condition on a step is what it takes to reach a good state from a state of the invariant, a run goes
through good states only exactly when every step meets the condition. -/
theorem good_iff {Q D : σ → κ → Prop} {I C : σ → Prop} (hgood : ∀ s, I s → C s)
    (hstep : ∀ s input, I s → D s input → Q s input → I (step s input))
    (hnec : ∀ s input, I s → D s input → C (step s input) → Q s input) (hs : I s)
    (hD : Along step D s inputs) :
    (∀ before, before <+: inputs → C (run step s before)) ↔ Along step Q s inputs := by
  induction inputs generalizing s with
  | nil =>
    constructor
    · exact fun _ => trivial
    · intro _ before hb
      rw [List.prefix_nil.mp hb]
      exact hgood s hs
  | cons input inputs ih =>
    constructor
    · intro h
      have hq : Q s input := hnec s input hs hD.1 (h [input] ⟨inputs, rfl⟩)
      refine ⟨hq, (ih (hstep s input hs hD.1 hq) hD.2).mp ?_⟩
      rintro before ⟨later, rfl⟩
      exact h (input :: before) ⟨later, rfl⟩
    · rintro ⟨hq, ha⟩ before ⟨later, hb⟩
      cases before with
      | nil => exact hgood s hs
      | cons first before =>
        cases hb
        exact (ih (hstep s _ hs hD.1 hq) hD.2).mpr ha before ⟨later, rfl⟩

theorem exists_rise {P : σ → Prop} (hs : ¬P s) (h : P (run step s inputs)) :
    ∃ before input after, inputs = before ++ input :: after ∧ ¬P (run step s before) ∧
      ∀ mid, mid <+: after → P (run step s (before ++ input :: mid)) := by
  induction inputs using List.reverseRecOn with
  | nil => exact absurd h hs
  | append_singleton inputs last ih =>
    by_cases hp : P (run step s inputs)
    · obtain ⟨before, input, after, rfl, hb, ha⟩ := ih hp
      refine ⟨before, input, after ++ [last], by simp, hb, fun mid hm => ?_⟩
      rcases List.prefix_concat_iff.mp hm with rfl | hm
      · simpa using h
      · exact ha mid hm
    · refine ⟨inputs, last, [], rfl, hp, fun mid hm => ?_⟩
      rwa [List.prefix_nil.mp hm]

theorem exists_appended {α : Type} {f : σ → List α} {R : σ → κ → α → Prop}
    (hstep : ∀ s input, f (step s input) = f s ∨ ∃ a, f (step s input) = f s ++ [a] ∧ R s input a) (hs : f s = [])
    {i : ℕ} {a : α} (h : (f (run step s inputs))[i]? = some a) :
    ∃ before input after, inputs = before ++ input :: after ∧ (f (run step s before)).length = i ∧ R (run step s before) input a := by
  induction inputs using List.reverseRecOn with
  | nil => simp [hs] at h
  | append_singleton inputs last ih =>
    have hearlier : (f (run step s inputs))[i]? = some a → ∃ before input after, inputs ++ [last] = before ++ input :: after ∧
        (f (run step s before)).length = i ∧ R (run step s before) input a := by
      intro hi
      obtain ⟨before, input, after, rfl, hlength, hr⟩ := ih hi
      exact ⟨before, input, after ++ [last], by simp, hlength, hr⟩
    rw [run_append, run_cons, run_nil] at h
    rcases hstep (run step s inputs) last with he | ⟨b, he, hr⟩
    · exact hearlier (he ▸ h)
    · rw [he] at h
      rcases lt_trichotomy i (f (run step s inputs)).length with hi | rfl | hi
      · rw [List.getElem?_append_left hi] at h
        exact hearlier h
      · rw [List.getElem?_concat_length, Option.some.injEq] at h
        exact ⟨inputs, last, [], rfl, rfl, h ▸ hr⟩
      · rw [List.getElem?_eq_none (by simpa using hi)] at h
        cases h

end PredictFun.Base.Runs
