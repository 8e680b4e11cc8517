import Mathlib

namespace PredictFun.Base

/-- Results that arrive one by one, each in its slot, until the count of those still missing is zero. -/
structure Join (ε α : Type) where
  slots : List (Option α)
  remaining : ℕ
  firstError : Option ε
  done : Bool

namespace Join

variable {ε α : Type} {n : ℕ}

def fresh (n : ℕ) : Join ε α := ⟨List.replicate n none, n, none, false⟩

def store (join : Join ε α) (index : ℕ) : Except ε α → Join ε α
  | .ok value => { join with slots := join.slots.set index (some value) }
  | .error error => { join with firstError := join.firstError.or (some error) }

/-- Nothing when a slot is empty that has to be read. -/
def final (join : Join ε α) : Option (Except ε (List α)) :=
  match join.firstError with
  | some error => some (.error error)
  | none => (join.slots.mapM id).map .ok

def complete (join : Join ε α) (index : ℕ) (result : Except ε α) : Join ε α × Option (Option (Except ε (List α))) :=
  if join.done then (join, none)
  else
    let stored := join.store index result
    if stored.remaining - 1 ≠ 0 then ({ stored with remaining := stored.remaining - 1 }, none)
    else ({ stored with remaining := stored.remaining - 1, done := true }, some stored.final)

def errorOf : Except ε α → Option ε
  | .ok _ => none
  | .error error => some error

structure Collected (n : ℕ) (results : List (ℕ × Except ε α)) (join : Join ε α) : Prop where
  size : join.slots.length = n
  slots : ∀ i value, join.slots[i]? = some (some value) ↔ (i, .ok value) ∈ results
  firstError : join.firstError = results.findSome? (fun result => errorOf result.2)

structure Holds (n : ℕ) (results : List (ℕ × Except ε α)) (join : Join ε α) : Prop extends Collected n results join where
  remaining : join.remaining + results.length = n
  done : join.done = true ↔ results.length = n

structure Joined (results : List (ℕ × Except ε α)) (final : Except ε (List α)) : Prop where
  error_iff : (∃ error, final = .error error) ↔ ∃ result ∈ results, ∃ error, result.2 = .error error
  values : ∀ values, final = .ok values →
    values.length = results.length ∧ ∀ i value, values[i]? = some value ↔ (i, .ok value) ∈ results

theorem fresh_holds (hn : 0 < n) : Holds n [] (fresh n : Join ε α) where
  size := List.length_replicate
  slots := by simp [fresh, List.getElem?_replicate]
  firstError := rfl
  remaining := rfl
  done := by simp [fresh]; omega

variable {results : List (ℕ × Except ε α)} {join : Join ε α} {index : ℕ}

theorem Collected.store (h : Collected n results join) (result : Except ε α) (hi : index < n)
    (hfree : index ∉ results.map Prod.fst) :
    Collected n (results ++ [(index, result)]) (join.store index result) := by
  have hnew : ∀ value, (index, .ok value) ∉ results := fun value hm => hfree (List.mem_map.mpr ⟨_, hm, rfl⟩)
  cases result with
  | error error =>
    refine ⟨h.size, fun i value => ?_, ?_⟩
    · rw [List.mem_append, ← h.slots]
      simp [Join.store]
    · rw [List.findSome?_append, ← h.firstError]
      rfl
  | ok value =>
    refine ⟨by rw [Join.store, List.length_set, h.size], fun i other => ?_, ?_⟩
    · rw [List.mem_append, ← h.slots, Join.store, List.getElem?_set]
      by_cases he : index = i
      · subst he
        have hempty : join.slots[index]? ≠ some (some other) := fun hs => hnew other ((h.slots _ _).mp hs)
        rw [if_pos rfl, if_pos (by rw [h.size]; exact hi), or_iff_right hempty]
        simp [eq_comm]
      · simp [he, Ne.symm he]
    · rw [List.findSome?_append, ← h.firstError]
      simp [Join.store, errorOf]

theorem mapM_id_map_some (values : List α) : (values.map some).mapM id = some values := by
  induction values with
  | nil => rfl
  | cons value values ih =>
    rw [List.map_cons, List.mapM_cons, ih]
    rfl

theorem exists_map_some {l : List (Option α)} (h : ∀ o ∈ l, o ≠ none) : ∃ values : List α, l = values.map some := by
  induction l with
  | nil => exact ⟨[], rfl⟩
  | cons o l ih =>
    obtain ⟨values, hvalues⟩ := ih (fun p hp => h p (List.mem_cons_of_mem _ hp))
    obtain ⟨value, hvalue⟩ := Option.ne_none_iff_exists'.mp (h o List.mem_cons_self)
    exact ⟨value :: values, by rw [hvalue, hvalues, List.map_cons]⟩

theorem Collected.final (h : Collected n results join) (hall : (results.map Prod.fst).Perm (List.range n)) :
    ∃ final, join.final = some final ∧ Joined results final := by
  have hlength : results.length = n := by rw [← List.length_map Prod.fst, hall.length_eq, List.length_range]
  have herror : join.firstError = none ↔ ∀ result ∈ results, errorOf result.2 = none := by
    rw [h.firstError, List.findSome?_eq_none_iff]
  cases hfirst : join.firstError with
  | some error =>
    refine ⟨.error error, by rw [Join.final, hfirst], ⟨?_, fun values hv => (nomatch hv)⟩⟩
    rw [h.firstError] at hfirst
    obtain ⟨result, hm, he⟩ := List.exists_of_findSome?_eq_some hfirst
    refine ⟨fun _ => ⟨result, hm, ?_⟩, fun _ => ⟨error, rfl⟩⟩
    cases hr : result.2 with
    | ok value =>
      rw [hr] at he
      cases he
    | error other => exact ⟨other, rfl⟩
  | none =>
    have hok := herror.mp hfirst
    have hfull : ∀ o ∈ join.slots, o ≠ none := by
      intro o ho hnone
      obtain ⟨i, hi, hget⟩ := List.getElem_of_mem ho
      obtain ⟨⟨j, result⟩, hm, hj⟩ := List.mem_map.mp (hall.mem_iff.mpr (List.mem_range.mpr (h.size ▸ hi)))
      cases hj
      cases result with
      | error error => exact absurd (hok _ hm) (by simp [errorOf])
      | ok value =>
        have hs := (h.slots _ _).mpr hm
        rw [List.getElem?_eq_getElem hi, hget, hnone] at hs
        cases hs
    obtain ⟨values, hvalues⟩ := exists_map_some hfull
    refine ⟨.ok values, by rw [Join.final, hfirst, hvalues, mapM_id_map_some]; rfl, ⟨?_, ?_⟩⟩
    · refine ⟨fun ⟨_, he⟩ => (nomatch he), fun ⟨result, hm, error, he⟩ => ?_⟩
      have := hok result hm
      rw [he] at this
      cases this
    · intro other ho
      cases ho
      refine ⟨by rw [hlength, ← h.size, hvalues, List.length_map], fun i value => ?_⟩
      rw [← h.slots, hvalues, List.getElem?_map]
      simp

theorem Holds.complete (h : Holds n results join) (result : Except ε α) (hi : index < n)
    (hfree : index ∉ results.map Prod.fst) (hl : results.length < n) :
    Holds n (results ++ [(index, result)]) (join.complete index result).1 ∧
      (join.complete index result).2 =
        if results.length + 1 = n then some (join.store index result).final else none := by
  have hopen : ¬join.done = true := fun hd => absurd (h.done.mp hd) (by omega)
  have hstored := h.toCollected.store result hi hfree
  have hsame : (join.store index result).remaining = join.remaining ∧ (join.store index result).done = join.done := by
    cases result <;> exact ⟨rfl, rfl⟩
  have hremaining := h.remaining
  rw [Join.complete, if_neg hopen]
  dsimp only
  rw [hsame.1]
  by_cases hlast : results.length + 1 = n
  · rw [if_neg (by omega), if_pos hlast]
    refine ⟨⟨⟨hstored.size, hstored.slots, hstored.firstError⟩, ?_, ?_⟩, rfl⟩
    · simp only [List.length_append, List.length_singleton]
      omega
    · simp only [List.length_append, List.length_singleton, hlast]
  · rw [if_pos (by omega), if_neg hlast]
    refine ⟨⟨⟨hstored.size, hstored.slots, hstored.firstError⟩, ?_, ?_⟩, rfl⟩
    · simp only [List.length_append, List.length_singleton]
      omega
    · simp only [List.length_append, List.length_singleton, hsame.2, hopen, hlast, Bool.false_eq_true]

end Join

end PredictFun.Base
