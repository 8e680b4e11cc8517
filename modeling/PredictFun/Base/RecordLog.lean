import Mathlib

namespace PredictFun.Base.RecordLog

variable {α β ε ρ σ : Type}

inductive Next (β ε ρ : Type)
  | finished
  | truncated
  | corrupt (failure : ε)
  | record (value : ρ) (rest : List β)

/-- A sequential reader; every record it accepts consumes input. -/
structure Reader (β ε ρ : Type) where
  next : List β → Next β ε ρ
  shrinks : ∀ input value rest, next input = .record value rest → rest.length < input.length

def scan (R : Reader β ε ρ) (apply : σ → ρ → σ) (torn : σ → σ) (s : σ) (input : List β) : Except ε σ :=
  match _h : R.next input with
  | .finished => .ok s
  | .truncated => .ok (torn s)
  | .corrupt failure => .error failure
  | .record value rest => scan R apply torn (apply s value) rest
termination_by input.length
decreasing_by exact R.shrinks input value rest _h

section

variable (R : Reader β ε ρ) (apply : σ → ρ → σ) (torn : σ → σ)

theorem scan_finished (s : σ) (input : List β) (h : R.next input = .finished) :
    scan R apply torn s input = .ok s := by
  rw [scan]
  split <;> simp_all

theorem scan_truncated (s : σ) (input : List β) (h : R.next input = .truncated) :
    scan R apply torn s input = .ok (torn s) := by
  rw [scan]
  split <;> simp_all

theorem scan_corrupt (s : σ) (input : List β) (failure : ε) (h : R.next input = .corrupt failure) :
    scan R apply torn s input = .error failure := by
  rw [scan]
  split <;> simp_all

theorem scan_record (s : σ) (input rest : List β) (value : ρ) (h : R.next input = .record value rest) :
    scan R apply torn s input = scan R apply torn (apply s value) rest := by
  conv_lhs => rw [scan]
  split <;> simp_all

inductive Reads : List β → List ρ → Prop
  | nil : Reads [] []
  | cons {used input : List β} {value : ρ} {values : List ρ} (head : ∀ more, R.next (used ++ more) = .record value more)
      (tail : Reads input values) : Reads (used ++ input) (value :: values)

variable {R}

theorem Reads.append {first second : List β} {xs ys : List ρ} (hx : Reads R first xs) (hy : Reads R second ys) :
    Reads R (first ++ second) (xs ++ ys) := by
  induction hx with
  | nil => exact hy
  | cons head _ ih =>
    rw [List.append_assoc]
    exact .cons head ih

theorem Reads.flatMap (frame : α → List β) (value : α → ρ) (xs : List α)
    (h : ∀ x ∈ xs, ∀ more, R.next (frame x ++ more) = .record (value x) more) :
    Reads R (xs.flatMap frame) (xs.map value) := by
  induction xs with
  | nil => exact .nil
  | cons x xs ih => exact .cons (h x (by simp)) (ih (fun y hy => h y (List.mem_cons_of_mem _ hy)))

theorem Reads.scan_eq {input : List β} {values : List ρ} (h : Reads R input values) (s : σ) (more : List β) :
    scan R apply torn s (input ++ more) = scan R apply torn (values.foldl apply s) more := by
  induction h generalizing s with
  | nil => rfl
  | cons head _ ih =>
    rw [List.append_assoc, scan_record R apply torn s _ _ _ (head _), ih, List.foldl_cons]

def Reader.Local (R : Reader β ε ρ) : Prop :=
  ∀ input value rest, R.next input = .record value rest →
    ∃ used, input = used ++ rest ∧ ∀ more, R.next (used ++ more) = .record value more

theorem scan_ok (hR : R.Local) {s result : σ} {input : List β} (h : scan R apply torn s input = .ok result) :
    ∃ used values rest, input = used ++ rest ∧ Reads R used values ∧
      ((R.next rest = .finished ∧ result = values.foldl apply s) ∨
        (R.next rest = .truncated ∧ result = torn (values.foldl apply s))) := by
  induction hn : input.length using Nat.strong_induction_on generalizing s input with
  | _ n ih =>
    cases hx : R.next input with
    | finished =>
      rw [scan_finished R apply torn s input hx] at h
      cases h
      exact ⟨[], [], input, rfl, .nil, Or.inl ⟨hx, rfl⟩⟩
    | truncated =>
      rw [scan_truncated R apply torn s input hx] at h
      cases h
      exact ⟨[], [], input, rfl, .nil, Or.inr ⟨hx, rfl⟩⟩
    | corrupt failure =>
      rw [scan_corrupt R apply torn s input failure hx] at h
      cases h
    | record value rest =>
      rw [scan_record R apply torn s input rest value hx] at h
      obtain ⟨used, rfl, hu⟩ := hR input value rest hx
      have hlt : rest.length < n := by
        rw [← hn]
        exact R.shrinks _ _ _ hx
      obtain ⟨used', values, rest', rfl, hr, hend⟩ := ih rest.length hlt h rfl
      exact ⟨used ++ used', value :: values, rest', by simp, .cons hu hr, hend⟩

end

theorem prefix_flatMap (frame : α → List β) (xs : List α) (p : List β) (h : p <+: xs.flatMap frame) :
    ∃ done rest torn, xs = done ++ rest ∧ p = done.flatMap frame ++ torn ∧
      (torn = [] ∨ ∃ x tail, rest = x :: tail ∧ torn <+: frame x ∧ torn.length < (frame x).length) := by
  induction xs generalizing p with
  | nil =>
    have hp : p = [] := List.prefix_nil.mp h
    exact ⟨[], [], [], rfl, by simp [hp], Or.inl rfl⟩
  | cons x xs ih =>
    rw [List.flatMap_cons] at h
    by_cases hl : p.length < (frame x).length
    · have hx : p <+: frame x := List.prefix_of_prefix_length_le h (List.prefix_append _ _) hl.le
      exact ⟨[], x :: xs, p, rfl, rfl, Or.inr ⟨x, xs, rfl, hx, hl⟩⟩
    · obtain ⟨q, rfl⟩ : frame x <+: p :=
        List.prefix_of_prefix_length_le (List.prefix_append _ _) h (by omega)
      have hq : q <+: xs.flatMap frame := (List.prefix_append_right_inj _).mp h
      obtain ⟨done, rest, torn, rfl, rfl, ht⟩ := ih q hq
      exact ⟨x :: done, rest, torn, rfl, by simp, ht⟩

end PredictFun.Base.RecordLog
