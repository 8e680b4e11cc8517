import Mathlib

namespace PredictFun.Base

inductive QueueEntry (ε : Type)
  | accepted (event : ε)
  | refused (event : ε)
  | popped (event : ε)
  -- the queue was full: what waited and the event are given up for a marker
  | overflowed (event : ε) (waited : List ε) (marker : ε)
  deriving DecidableEq

structure EventQueue (ε : Type) where
  capacity : ℕ
  waiting : List ε := []
  history : List (QueueEntry ε) := []
  deriving DecidableEq

namespace EventQueue

variable {ε : Type}

def full (q : EventQueue ε) : Bool := decide (q.capacity ≤ q.waiting.length)

def push (q : EventQueue ε) (event : ε) : EventQueue ε :=
  { q with waiting := q.waiting ++ [event], history := q.history ++ [.accepted event] }

def refuse (q : EventQueue ε) (event : ε) : EventQueue ε := { q with history := q.history ++ [.refused event] }

/-- An event that is never refused: a full queue is emptied for a marker in its place. -/
def force (marker : ε) (q : EventQueue ε) (event : ε) : EventQueue ε :=
  if q.full then { q with waiting := [marker], history := q.history ++ [.overflowed event q.waiting marker] }
  else q.push event

def overflow (marker : ε) (q : EventQueue ε) (event : ε) : EventQueue ε :=
  { q with waiting := [marker], history := q.history ++ [.overflowed event q.waiting marker] }

def pop (q : EventQueue ε) : EventQueue ε :=
  match q.waiting with
  | [] => q
  | event :: rest => { q with waiting := rest, history := q.history ++ [.popped event] }

def accepted (q : EventQueue ε) : List ε :=
  q.history.filterMap (fun entry => match entry with | .accepted event => some event | _ => none)

def popped (q : EventQueue ε) : List ε :=
  q.history.filterMap (fun entry => match entry with | .popped event => some event | _ => none)

def lost (q : EventQueue ε) : List ε :=
  q.history.flatMap (fun entry => match entry with
    | .refused event => [event]
    | .overflowed _ waited _ => waited
    | _ => [])

@[simp] theorem waiting_push (q : EventQueue ε) (event : ε) : (q.push event).waiting = q.waiting ++ [event] := rfl

@[simp] theorem waiting_refuse (q : EventQueue ε) (event : ε) : (q.refuse event).waiting = q.waiting := rfl

theorem mem_of_mem_pop {q : EventQueue ε} {event : ε} (h : event ∈ q.pop.waiting) : event ∈ q.waiting := by
  unfold pop at h
  split at h
  · exact h
  · next he => exact he ▸ List.mem_cons_of_mem _ h

@[simp] theorem accepted_push (q : EventQueue ε) (event : ε) : (q.push event).accepted = q.accepted ++ [event] := by
  simp [accepted, push]

@[simp] theorem accepted_refuse (q : EventQueue ε) (event : ε) : (q.refuse event).accepted = q.accepted := by
  simp [accepted, refuse]

@[simp] theorem accepted_pop (q : EventQueue ε) : q.pop.accepted = q.accepted := by
  unfold pop
  split <;> simp [accepted]

@[simp] theorem accepted_overflow (marker : ε) (q : EventQueue ε) (event : ε) : (q.overflow marker event).accepted = q.accepted := by
  simp [accepted, overflow]

@[simp] theorem popped_push (q : EventQueue ε) (event : ε) : (q.push event).popped = q.popped := by simp [popped, push]

@[simp] theorem popped_refuse (q : EventQueue ε) (event : ε) : (q.refuse event).popped = q.popped := by simp [popped, refuse]

@[simp] theorem popped_overflow (marker : ε) (q : EventQueue ε) (event : ε) : (q.overflow marker event).popped = q.popped := by
  simp [popped, overflow]

theorem popped_pop (q : EventQueue ε) : q.pop.popped ++ q.pop.waiting = q.popped ++ q.waiting := by
  unfold pop
  split
  · rfl
  · next he => simp [popped, he]

@[simp] theorem capacity_pop (q : EventQueue ε) : q.pop.capacity = q.capacity := by
  unfold pop
  split <;> rfl

@[simp] theorem lost_push (q : EventQueue ε) (event : ε) : (q.push event).lost = q.lost := by
  simp [lost, push]

@[simp] theorem lost_refuse (q : EventQueue ε) (event : ε) : (q.refuse event).lost = q.lost ++ [event] := by
  simp [lost, refuse]

@[simp] theorem lost_pop (q : EventQueue ε) : q.pop.lost = q.lost := by
  unfold pop
  split <;> simp [lost]

theorem lost_force (marker : ε) (q : EventQueue ε) (event : ε) :
    (q.force marker event).lost = if q.full then q.lost ++ q.waiting else q.lost := by
  unfold force
  split_ifs
  · simp [lost]
  · exact lost_push q event

section

variable (Marks : ε → Prop)

inductive Operated : EventQueue ε → EventQueue ε → Prop
  | push {q : EventQueue ε} (event : ε) (hroom : q.full = false) : Operated q (q.push event)
  | refuse {q : EventQueue ε} (event : ε) : Operated q (q.refuse event)
  | overflow {q : EventQueue ε} (marker event : ε) (hm : Marks marker) : Operated q (q.overflow marker event)
  | pop {q : EventQueue ε} : Operated q q.pop

def Reaches : EventQueue ε → EventQueue ε → Prop := Relation.ReflTransGen (Operated Marks)

variable {Marks} {q r t : EventQueue ε}

theorem Reaches.refl (q : EventQueue ε) : Reaches Marks q q := Relation.ReflTransGen.refl

theorem Reaches.trans (h : Reaches Marks q r) (ht : Reaches Marks r t) : Reaches Marks q t := Relation.ReflTransGen.trans h ht

theorem Operated.reaches (h : Operated Marks q r) : Reaches Marks q r := Relation.ReflTransGen.single h

theorem reaches_force {marker : ε} (hm : Marks marker) (q : EventQueue ε) (event : ε) : Reaches Marks q (q.force marker event) := by
  apply Operated.reaches
  by_cases h : q.full = true
  · have he : q.force marker event = q.overflow marker event := if_pos h
    rw [he]
    exact .overflow marker event hm
  · have he : q.force marker event = q.push event := if_neg h
    rw [he]
    exact .push event (by simpa using h)

theorem Reaches.invariant {I : EventQueue ε → Prop} (hstep : ∀ q r, Operated Marks q r → I q → I r) (h : Reaches Marks q r)
    (hq : I q) : I r := by
  induction h with
  | refl => exact hq
  | tail _ hr ih => exact hstep _ _ hr ih

theorem Operated.history (h : Operated Marks q r) : q.history <+: r.history := by
  cases h with
  | push event hroom => exact List.prefix_append ..
  | refuse event => exact List.prefix_append ..
  | overflow marker event hm => exact List.prefix_append ..
  | pop =>
    unfold EventQueue.pop
    split
    · exact List.prefix_rfl
    · exact List.prefix_append ..

theorem Reaches.history (h : Reaches Marks q r) : q.history <+: r.history :=
  h.invariant (I := fun r => q.history <+: r.history) (fun _ _ ho hp => hp.trans ho.history) List.prefix_rfl

/-- What is shown is what was accepted, with a marker in the place of each block that is missing. -/
inductive Replaced (Marks : ε → Prop) : List ε → List ε → Prop
  | nil : Replaced Marks [] []
  | keep {accepted shown : List ε} (event : ε) (h : Replaced Marks accepted shown) :
      Replaced Marks (event :: accepted) (event :: shown)
  | gap {accepted shown : List ε} (block : List ε) {marker : ε} (hm : Marks marker) (h : Replaced Marks accepted shown) :
      Replaced Marks (block ++ accepted) (marker :: shown)

theorem Replaced.append {first second shown more : List ε} (h : Replaced Marks first shown) (hm : Replaced Marks second more) :
    Replaced Marks (first ++ second) (shown ++ more) := by
  induction h with
  | nil => exact hm
  | keep event h ih => exact .keep event ih
  | gap block hmarks h ih =>
    rw [List.append_assoc]
    exact .gap block hmarks ih

theorem Replaced.split {all first second : List ε} (h : Replaced Marks all (first ++ second)) :
    ∃ past later, all = past ++ later ∧ Replaced Marks past first ∧ Replaced Marks later second := by
  induction first generalizing all with
  | nil => exact ⟨[], all, rfl, .nil, h⟩
  | cons event first ih =>
    cases h with
    | keep event h =>
      obtain ⟨past, later, rfl, hp, hl⟩ := ih h
      exact ⟨event :: past, later, rfl, .keep event hp, hl⟩
    | gap block hm h =>
      obtain ⟨past, later, rfl, hp, hl⟩ := ih h
      exact ⟨block ++ past, later, (List.append_assoc ..).symm, .gap block hm hp, hl⟩

/-- Every event that was accepted is popped, waits, or is in a block that a marker stands for, all in their order. -/
structure Visible (Marks : ε → Prop) (q : EventQueue ε) : Prop where
  room : q.waiting.length ≤ q.capacity
  shown : Replaced Marks q.accepted (q.popped ++ q.waiting)

theorem Operated.capacity (h : Operated Marks q r) : r.capacity = q.capacity := by
  cases h with
  | push event hroom => rfl
  | refuse event => rfl
  | overflow marker event hm => rfl
  | pop => exact capacity_pop q

theorem length_pop_le (q : EventQueue ε) : q.pop.waiting.length ≤ q.waiting.length := by
  unfold pop
  split
  · exact le_refl _
  · next he =>
    rw [he]
    exact Nat.le_succ _

theorem Visible.operated (hc : 1 ≤ q.capacity) (h : Visible Marks q) (ho : Operated Marks q r) : Visible Marks r := by
  cases ho with
  | push event hroom =>
    constructor
    · have hlt : q.waiting.length < q.capacity := not_le.mp (of_decide_eq_false hroom)
      rw [waiting_push, List.length_append]
      exact hlt
    · rw [accepted_push, popped_push, waiting_push, ← List.append_assoc]
      exact h.shown.append (.keep event .nil)
  | refuse event => exact ⟨h.room, by simpa using h.shown⟩
  | overflow marker event hm =>
    refine ⟨hc, ?_⟩
    rw [accepted_overflow, popped_overflow]
    obtain ⟨past, later, he, hp, -⟩ := h.shown.split
    rw [he, ← List.append_nil later]
    exact hp.append (.gap later hm .nil)
  | pop =>
    constructor
    · rw [capacity_pop]
      exact (length_pop_le q).trans h.room
    · rw [accepted_pop, popped_pop]
      exact h.shown

theorem Reaches.visible {capacity : ℕ} (hc : 1 ≤ capacity) (h : Reaches Marks { capacity := capacity } q) :
    q.capacity = capacity ∧ Visible Marks q := by
  refine h.invariant (I := fun q => q.capacity = capacity ∧ Visible Marks q) ?_ ⟨rfl, Nat.zero_le _, .nil⟩
  rintro q r ho ⟨rfl, hv⟩
  exact ⟨ho.capacity, hv.operated hc ho⟩

end

theorem lost_mono {q r : EventQueue ε} (h : q.history <+: r.history) {event : ε} (hm : event ∈ q.lost) : event ∈ r.lost := by
  obtain ⟨entry, he, hl⟩ := List.mem_flatMap.mp hm
  exact List.mem_flatMap.mpr ⟨entry, h.subset he, hl⟩

end EventQueue

end PredictFun.Base
