import PredictFun.Base.Interaction

namespace PredictFun.Base

variable {σ κ : Type} (A : κ → Type) (α : Type)

inductive Phase (σ : Type) {κ : Type} (A : κ → Type) (α : Type)
  | running (program : Program σ A α)
  | waiting (query : κ) (next : A query → Program σ A α)
  | finished (value : α)

structure Task (σ : Type) {κ : Type} (A : κ → Type) (α : Type) where
  origin : Program σ A α
  events : List (Program.Event A)
  phase : Phase σ A α

inductive Entry {κ : Type} (A : κ → Type) (α : Type)
  | dispatched (index : ℕ) (query : κ)
  | answered (index : ℕ) (event : Program.Event A)
  | completed (index : ℕ) (value : α)

/-- Programs that run side by side on one shared state, with a log of what they and their environment do. -/
structure Tasks (σ : Type) {κ : Type} (A : κ → Type) (α : Type) where
  shared : σ
  tasks : List (Task σ A α)
  log : List (Entry A α)

inductive TaskInput (σ : Type) {κ : Type} (A : κ → Type) (α : Type)
  | start (program : Program σ A α)
  | advance (index : ℕ)
  -- the environment answers the query that the task waits for
  | answer (index : ℕ) (reply : (query : κ) → A query)

variable {A α}

namespace Tasks

def advance (x : Tasks σ A α) (index : ℕ) (task : Task σ A α) : Program σ A α → Tasks σ A α
  | .done value =>
    { x with tasks := x.tasks.set index { task with phase := .finished value }, log := x.log ++ [.completed index value] }
  | .access update next =>
    { x with shared := update x.shared, tasks := x.tasks.set index { task with phase := .running (next x.shared) } }
  | .ask query next =>
    { x with tasks := x.tasks.set index { task with phase := .waiting query next }, log := x.log ++ [.dispatched index query] }

def step (x : Tasks σ A α) : TaskInput σ A α → Tasks σ A α
  | .start program => { x with tasks := x.tasks ++ [⟨program, [], .running program⟩] }
  | .advance index =>
    match x.tasks[index]? with
    | none => x
    | some task =>
      match task.phase with
      | .running program => x.advance index task program
      | _ => x
  | .answer index reply =>
    match x.tasks[index]? with
    | none => x
    | some task =>
      match task.phase with
      | .waiting query next =>
        { x with
          tasks := x.tasks.set index
            { task with events := task.events ++ [⟨query, reply query⟩], phase := .running (next (reply query)) }
          log := x.log ++ [.answered index ⟨query, reply query⟩] }
      | _ => x

def fresh (shared : σ) : Tasks σ A α := ⟨shared, [], []⟩

end Tasks

namespace Task

def Sound (task : Task σ A α) : Prop :=
  match task.phase with
  | .running program => Program.Path task.origin task.events program
  | .waiting query next => Program.Path task.origin task.events (.ask query next)
  | .finished value => task.origin.Yields task.events value

def asked (task : Task σ A α) : List κ :=
  task.events.map Sigma.fst ++ match task.phase with
    | .waiting query _ => [query]
    | _ => []

def result (task : Task σ A α) : List α :=
  match task.phase with
  | .finished value => [value]
  | _ => []

theorem length_result_le (task : Task σ A α) : task.result.length ≤ 1 := by
  unfold result
  split <;> simp

end Task

namespace Entry

def dispatchOf (index : ℕ) : Entry A α → Option κ
  | dispatched i query => if i = index then some query else none
  | _ => none

def answerOf (index : ℕ) : Entry A α → Option (Program.Event A)
  | answered i event => if i = index then some event else none
  | _ => none

def completionOf (index : ℕ) : Entry A α → Option α
  | completed i value => if i = index then some value else none
  | _ => none

theorem mem_dispatched {index : ℕ} {query : κ} {log : List (Entry A α)} :
    query ∈ log.filterMap (dispatchOf index) ↔ .dispatched index query ∈ log := by
  rw [List.mem_filterMap]
  constructor
  · rintro ⟨entry, hm, he⟩
    cases entry with
    | dispatched i other =>
      obtain ⟨rfl, hq⟩ := Option.ite_none_right_eq_some.mp he
      cases hq
      exact hm
    | _ => cases he
  · intro hm
    exact ⟨_, hm, if_pos rfl⟩

theorem mem_answered {index : ℕ} {event : Program.Event A} {log : List (Entry A α)} :
    event ∈ log.filterMap (answerOf index) ↔ .answered index event ∈ log := by
  rw [List.mem_filterMap]
  constructor
  · rintro ⟨entry, hm, he⟩
    cases entry with
    | answered i other =>
      obtain ⟨rfl, hq⟩ := Option.ite_none_right_eq_some.mp he
      cases hq
      exact hm
    | _ => cases he
  · intro hm
    exact ⟨_, hm, if_pos rfl⟩

end Entry

namespace Tasks

inductive Moves (x : Tasks σ A α) : TaskInput σ A α → Tasks σ A α → Prop
  | same {input} : Moves x input x
  | start (program : Program σ A α) :
      Moves x (.start program) { x with tasks := x.tasks ++ [⟨program, [], .running program⟩] }
  | done {input index task value} : x.tasks[index]? = some task → task.phase = .running (.done value) →
      Moves x input (x.advance index task (.done value))
  | access {input index task update next} : x.tasks[index]? = some task →
      task.phase = .running (.access update next) → Moves x input (x.advance index task (.access update next))
  | ask {input index task query next} : x.tasks[index]? = some task → task.phase = .running (.ask query next) →
      Moves x input (x.advance index task (.ask query next))
  | answer {input index task query next} (a : A query) : x.tasks[index]? = some task →
      task.phase = .waiting query next → Moves x input { x with
        tasks := x.tasks.set index { task with events := task.events ++ [⟨query, a⟩], phase := .running (next a) }
        log := x.log ++ [.answered index ⟨query, a⟩] }

theorem step_moves (x : Tasks σ A α) (input : TaskInput σ A α) : x.Moves input (x.step input) := by
  cases input with
  | start program => exact .start program
  | advance index =>
    rw [step]
    cases ht : x.tasks[index]? with
    | none => exact .same
    | some task =>
      dsimp only
      cases hp : task.phase with
      | running program =>
        cases program with
        | done value => exact .done ht hp
        | access update next => exact .access ht hp
        | ask query next => exact .ask ht hp
      | waiting query next => exact .same
      | finished value => exact .same
  | answer index reply =>
    rw [step]
    cases ht : x.tasks[index]? with
    | none => exact .same
    | some task =>
      dsimp only
      cases hp : task.phase with
      | running program => exact .same
      | waiting query next => exact .answer (reply query) ht hp
      | finished value => exact .same

def Recorded (index : ℕ) (log : List (Entry A α)) : Option (Task σ A α) → Prop
  | none => log.filterMap (Entry.dispatchOf index) = [] ∧ log.filterMap (Entry.answerOf index) = [] ∧
      log.filterMap (Entry.completionOf index) = []
  | some task => task.Sound ∧ log.filterMap (Entry.dispatchOf index) = task.asked ∧
      log.filterMap (Entry.answerOf index) = task.events ∧ log.filterMap (Entry.completionOf index) = task.result

variable {index : ℕ} {input : TaskInput σ A α} {inputs : List (TaskInput σ A α)} {before after : List (Entry A α)}

theorem recorded_of_filterMap {log log' : List (Entry A α)} {task : Option (Task σ A α)}
    (h : Recorded index log task) (hd : log'.filterMap (Entry.dispatchOf index) = log.filterMap (Entry.dispatchOf index))
    (ha : log'.filterMap (Entry.answerOf index) = log.filterMap (Entry.answerOf index))
    (hc : log'.filterMap (Entry.completionOf index) = log.filterMap (Entry.completionOf index)) :
    Recorded index log' task := by
  cases task with
  | none => exact ⟨hd.trans h.1, ha.trans h.2.1, hc.trans h.2.2⟩
  | some task => exact ⟨h.1, hd.trans h.2.1, ha.trans h.2.2.1, hc.trans h.2.2.2⟩

theorem recorded_set {x : Tasks σ A α} {task task' : Task σ A α} {entries : List (Entry A α)}
    (h : ∀ j, Recorded j x.log x.tasks[j]?) (ht : x.tasks[index]? = some task)
    (hnew : Recorded index (x.log ++ entries) (some task'))
    (hother : ∀ j, index ≠ j → entries.filterMap (Entry.dispatchOf j) = [] ∧ entries.filterMap (Entry.answerOf j) = [] ∧
      entries.filterMap (Entry.completionOf j) = []) :
    ∀ j, Recorded j (x.log ++ entries) (x.tasks.set index task')[j]? := by
  intro j
  by_cases hj : index = j
  · subst hj
    rwa [List.getElem?_set_self (List.getElem?_eq_some_iff.mp ht).1]
  · rw [List.getElem?_set_ne hj]
    obtain ⟨hd, ha, hc⟩ := hother j hj
    refine recorded_of_filterMap (h j) ?_ ?_ ?_
    · rw [List.filterMap_append, hd, List.append_nil]
    · rw [List.filterMap_append, ha, List.append_nil]
    · rw [List.filterMap_append, hc, List.append_nil]

theorem moves_recorded {x y : Tasks σ A α} (hm : x.Moves input y) (h : ∀ j, Recorded j x.log x.tasks[j]?) :
    ∀ j, Recorded j y.log y.tasks[j]? := by
  cases hm with
  | same => exact h
  | start program =>
    intro j
    dsimp only
    rcases lt_trichotomy j x.tasks.length with hlt | rfl | hgt
    · rw [List.getElem?_append_left hlt]
      exact h j
    · have hold := h x.tasks.length
      rw [List.getElem?_eq_none (le_refl _)] at hold
      rw [List.getElem?_append_right (le_refl _), Nat.sub_self]
      exact ⟨.refl program, hold.1, hold.2.1, hold.2.2⟩
    · have hold := h j
      rw [List.getElem?_eq_none hgt.le] at hold
      rwa [List.getElem?_eq_none (by simp; omega)]
  | @done _ index task value ht hp =>
    obtain ⟨origin, events, phase⟩ := task
    cases hp
    have hold := h index
    rw [ht] at hold
    obtain ⟨hs, hd, ha, hc⟩ := hold
    refine recorded_set h ht ⟨?_, ?_, ?_, ?_⟩ (fun j hj => ⟨rfl, rfl, by simp [Entry.completionOf, hj]⟩)
    · have hy := Program.Path.yields hs (Program.yields_done.mpr ⟨rfl, rfl⟩)
      rwa [List.append_nil] at hy
    · rw [List.filterMap_append, hd]
      exact List.append_nil _
    · rw [List.filterMap_append, ha]
      exact List.append_nil _
    · rw [List.filterMap_append, hc]
      simp [Entry.completionOf, Task.result]
  | @access _ index task update next ht hp =>
    obtain ⟨origin, events, phase⟩ := task
    cases hp
    have hold := h index
    rw [ht] at hold
    obtain ⟨hs, hd, ha, hc⟩ := hold
    have hset : ∀ j, Recorded j (x.log ++ []) (x.tasks.set index ⟨origin, events, .running (next x.shared)⟩)[j]? :=
      recorded_set h ht (by
        rw [List.append_nil]
        refine ⟨?_, hd, ha, hc⟩
        have hp := Program.Path.append hs (.access x.shared (.refl _))
        rwa [List.append_nil] at hp) (fun j _ => ⟨rfl, rfl, rfl⟩)
    rwa [List.append_nil] at hset
  | @ask _ index task query next ht hp =>
    obtain ⟨origin, events, phase⟩ := task
    cases hp
    have hold := h index
    rw [ht] at hold
    obtain ⟨hs, hd, ha, hc⟩ := hold
    refine recorded_set h ht ⟨hs, ?_, ?_, ?_⟩ (fun j hj => ⟨by simp [Entry.dispatchOf, hj], rfl, rfl⟩)
    · rw [List.filterMap_append, hd]
      simp [Entry.dispatchOf, Task.asked]
    · rw [List.filterMap_append, ha]
      exact List.append_nil _
    · rw [List.filterMap_append, hc]
      rfl
  | @answer _ index task query next a ht hp =>
    obtain ⟨origin, events, phase⟩ := task
    cases hp
    have hold := h index
    rw [ht] at hold
    obtain ⟨hs, hd, ha, hc⟩ := hold
    refine recorded_set h ht ⟨?_, ?_, ?_, ?_⟩ (fun j hj => ⟨rfl, by simp [Entry.answerOf, hj], rfl⟩)
    · exact Program.Path.append hs (.ask a (.refl _))
    · rw [List.filterMap_append, hd]
      simp [Entry.dispatchOf, Task.asked]
    · rw [List.filterMap_append, ha]
      simp [Entry.answerOf]
    · rw [List.filterMap_append, hc]
      rfl

theorem run_recorded (shared : σ) (inputs : List (TaskInput σ A α)) :
    ∀ j, Recorded j (Runs.run step (fresh shared) inputs).log (Runs.run step (fresh shared) inputs).tasks[j]? :=
  Runs.run_invariant step (I := fun x : Tasks σ A α => ∀ j, Recorded j x.log x.tasks[j]?) (Q := fun _ _ => True)
    (fun x input h _ => moves_recorded (step_moves x input) h) (fun _ => ⟨rfl, rfl, rfl⟩)
    ((Runs.along_iff _ _ _ _).mpr (fun _ _ _ => trivial))

theorem moves_log {x y : Tasks σ A α} (h : x.Moves input y) : y.log = x.log ∨ ∃ entry, y.log = x.log ++ [entry] := by
  cases h with
  | same | start | access => exact Or.inl rfl
  | done | ask | answer => exact Or.inr ⟨_, rfl⟩

theorem moves_origin {x y : Tasks σ A α} (h : x.Moves input y) {task : Task σ A α} (ht : x.tasks[index]? = some task) :
    ∃ task', y.tasks[index]? = some task' ∧ task'.origin = task.origin := by
  have hset {i : ℕ} {found new : Task σ A α} (hi : x.tasks[i]? = some found) (hn : new.origin = found.origin) :
      ∃ task', (x.tasks.set i new)[index]? = some task' ∧ task'.origin = task.origin := by
    by_cases hj : i = index
    · subst hj
      rw [ht] at hi
      cases hi
      exact ⟨new, List.getElem?_set_self (List.getElem?_eq_some_iff.mp ht).1, hn⟩
    · exact ⟨task, (List.getElem?_set_ne hj).trans ht, rfl⟩
  cases h with
  | same => exact ⟨task, ht, rfl⟩
  | start program => exact ⟨task, (List.getElem?_append_left (List.getElem?_eq_some_iff.mp ht).1).trans ht, rfl⟩
  | done hi _ | access hi _ | ask hi _ | answer a hi _ => exact hset hi rfl

theorem run_origin {x : Tasks σ A α} (inputs : List (TaskInput σ A α)) {task : Task σ A α}
    (ht : x.tasks[index]? = some task) :
    ∃ task', (Runs.run step x inputs).tasks[index]? = some task' ∧ task'.origin = task.origin :=
  Runs.run_invariant step (Q := fun _ _ => True)
    (I := fun y : Tasks σ A α => ∃ task', y.tasks[index]? = some task' ∧ task'.origin = task.origin)
    (fun y input h _ => by
      obtain ⟨found, hf, ho⟩ := h
      obtain ⟨task', ht', ho'⟩ := moves_origin (step_moves y input) hf
      exact ⟨task', ht', ho'.trans ho⟩)
    ⟨task, ht, rfl⟩ ((Runs.along_iff _ _ _ _).mpr (fun _ _ _ => trivial))

theorem run_log_split {x : Tasks σ A α}
    {entry : Entry A α} (hx : x.log.length ≤ before.length)
    (h : (Runs.run step x inputs).log = before ++ entry :: after) :
    ∃ first input later, inputs = first ++ input :: later ∧ (Runs.run step x first).log = before ∧
      (Runs.run step x (first ++ [input])).log = before ++ [entry] := by
  induction inputs using List.reverseRecOn generalizing after with
  | nil =>
    rw [Runs.run_nil] at h
    rw [h] at hx
    simp at hx
  | append_singleton inputs input ih =>
    have hlast : Runs.run step x (inputs ++ [input]) = (Runs.run step x inputs).step input := by
      rw [Runs.run_append, Runs.run_cons, Runs.run_nil]
    rw [hlast] at h
    obtain hlog | ⟨written, hlog⟩ := moves_log (step_moves (Runs.run step x inputs) input)
    · obtain ⟨first, input', later, rfl, hb, he⟩ := ih (hlog.symm.trans h)
      exact ⟨first, input', later ++ [input], by simp, hb, he⟩
    · rw [hlog] at h
      rcases List.eq_nil_or_concat after with rfl | ⟨after, last, rfl⟩
      · obtain ⟨hb, he⟩ := List.append_inj' h rfl
        refine ⟨inputs, input, [], rfl, hb, ?_⟩
        rw [hlast, hlog, h]
      · have hsplit : (Runs.run step x inputs).log ++ [written] = (before ++ entry :: after) ++ [last] := by
          rw [h]
          simp
        obtain ⟨hb, -⟩ := List.append_inj' hsplit rfl
        obtain ⟨first, input', later, rfl, hb', he⟩ := ih hb
        exact ⟨first, input', later ++ [input], by simp, hb', he⟩

theorem run_completed {shared : σ} {value : α}
    (h : (Runs.run step (fresh shared) inputs).log = before ++ .completed index value :: after) :
    ∃ task, (Runs.run step (fresh shared) inputs).tasks[index]? = some task ∧
      task.origin.Yields (before.filterMap (Entry.answerOf index)) value ∧
      before.filterMap (Entry.dispatchOf index) = (before.filterMap (Entry.answerOf index)).map Sigma.fst := by
  obtain ⟨first, input, later, rfl, -, hlog⟩ := run_log_split (Nat.zero_le _) h
  have hr := run_recorded shared (first ++ [input]) index
  rw [hlog] at hr
  cases ht : (Runs.run step (fresh shared) (first ++ [input])).tasks[index]? with
  | none =>
    rw [ht] at hr
    have hc := hr.2.2
    simp [Entry.completionOf] at hc
  | some task =>
    rw [ht] at hr
    obtain ⟨hs, hd, ha, hc⟩ := hr
    obtain ⟨task', ht', ho⟩ := run_origin later ht
    rw [← Runs.run_append, List.append_assoc, List.singleton_append] at ht'
    rw [List.filterMap_append] at hd ha hc
    obtain ⟨origin, events, phase⟩ := task
    cases phase with
    | running program | waiting query next => simp [Entry.completionOf, Task.result] at hc
    | finished result =>
      have hv : result = value := by
        have hlast := congrArg List.getLast? hc
        simp [Entry.completionOf, Task.result] at hlast
        exact hlast.symm
      subst hv
      simp only [Entry.answerOf, List.filterMap_cons, List.filterMap_nil, List.append_nil] at ha
      simp only [Entry.dispatchOf, List.filterMap_cons, List.filterMap_nil, List.append_nil] at hd
      refine ⟨task', ht', ?_, ?_⟩
      · rw [ho, ha]
        exact hs
      · rw [hd, ha]
        exact List.append_nil _

theorem run_dispatched {shared : σ}
    {query : κ} (h : (Runs.run step (fresh shared) inputs).log = before ++ .dispatched index query :: after) :
    ∃ task next, (Runs.run step (fresh shared) inputs).tasks[index]? = some task ∧
      Program.Path task.origin (before.filterMap (Entry.answerOf index)) (.ask query next) := by
  obtain ⟨first, input, later, rfl, hbefore, hlog⟩ := run_log_split (Nat.zero_le _) h
  have hold := run_recorded shared first index
  have hr := run_recorded shared (first ++ [input]) index
  rw [hbefore] at hold
  rw [hlog] at hr
  have hdispatch : (before ++ [Entry.dispatched index query]).filterMap (Entry.dispatchOf index) =
      before.filterMap (Entry.dispatchOf index) ++ [query] := by
    rw [List.filterMap_append]
    simp [Entry.dispatchOf]
  have hanswers : (before ++ [Entry.dispatched index query]).filterMap (Entry.answerOf index) =
      before.filterMap (Entry.answerOf index) := by
    rw [List.filterMap_append]
    exact List.append_nil _
  cases ht : (Runs.run step (fresh shared) (first ++ [input])).tasks[index]? with
  | none =>
    rw [ht] at hr
    have hd := hr.1
    rw [hdispatch] at hd
    simp at hd
  | some task =>
    rw [ht] at hr
    obtain ⟨hs, hd, ha, -⟩ := hr
    rw [hdispatch] at hd
    rw [hanswers] at ha
    obtain ⟨task', ht', ho⟩ := run_origin later ht
    rw [← Runs.run_append, List.append_assoc, List.singleton_append] at ht'
    obtain ⟨origin, events, phase⟩ := task
    change _ = events at ha
    -- what was dispatched before was answered at most, so the new query is the one that is pending
    have hbound : events.length ≤ (before.filterMap (Entry.dispatchOf index)).length := by
      cases hf : (Runs.run step (fresh shared) first).tasks[index]? with
      | none =>
        rw [hf] at hold
        rw [← ha, hold.2.1]
        exact Nat.zero_le _
      | some earlier =>
        rw [hf] at hold
        rw [hold.2.1, ← ha, hold.2.2.1, Task.asked]
        simp
    have hlength := congrArg List.length hd
    cases phase with
    | running program | finished value =>
      simp [Task.asked] at hlength
      omega
    | waiting pending next =>
      have hq : query = pending := by
        have hlast := congrArg List.getLast? hd
        simpa [Task.asked] using hlast
      subst hq
      exact ⟨task', next, ht', by rw [ho, ha]; exact hs⟩

end Tasks

theorem Task.asked_prefix [Nonempty σ] [∀ query, Nonempty (A query)] {task : Task σ A α} (h : task.Sound) :
    ∃ events result, task.origin.Yields events result ∧ task.asked <+: events.map Sigma.fst := by
  obtain ⟨origin, events, phase⟩ := task
  cases phase with
  | running program =>
    obtain ⟨more, result, hy⟩ := program.exists_yields
    refine ⟨_, result, Program.Path.yields h hy, ?_⟩
    exact ⟨more.map Sigma.fst, by simp [Task.asked]⟩
  | waiting query next =>
    obtain ⟨more, result, hy⟩ := (Program.ask query next).exists_yields
    refine ⟨_, result, Program.Path.yields h hy, ?_⟩
    obtain ⟨a, rest, rfl, -⟩ := hy
    exact ⟨rest.map Sigma.fst, by simp [Task.asked]⟩
  | finished value => exact ⟨events, value, h, by simp [Task.asked]⟩

variable {I : σ → Prop} {allowed : κ → Prop} {known : (query : κ) → A query → Prop}

def Phase.Guarded (I : σ → Prop) (allowed : κ → Prop) (known : (query : κ) → A query → Prop) : Phase σ A α → Prop
  | .running program => program.Guarded I allowed known (fun _ => True)
  | .waiting query next => ∀ a, ¬known query a → (next a).Guarded I allowed known (fun _ => True)
  | .finished _ => True

def Told (known : (query : κ) → A query → Prop) (log : List (Entry A α)) : Prop :=
  ∃ index event, Entry.answered index event ∈ log ∧ known event.1 event.2

def Tasks.Guarded (I : σ → Prop) (allowed : κ → Prop) (known : (query : κ) → A query → Prop) (x : Tasks σ A α) : Prop :=
  Told known x.log ∨ (I x.shared ∧ ∀ task ∈ x.tasks, task.phase.Guarded I allowed known)

theorem Told.append {log more : List (Entry A α)} (h : Told known log) : Told known (log ++ more) := by
  obtain ⟨index, event, hm, hk⟩ := h
  exact ⟨index, event, List.mem_append_left _ hm, hk⟩

namespace Tasks

variable {index : ℕ}

theorem guarded_set {x : Tasks σ A α} {task : Task σ A α}
    (h : ∀ task ∈ x.tasks, task.phase.Guarded I allowed known) (hnew : task.phase.Guarded I allowed known) :
    ∀ t ∈ x.tasks.set index task, t.phase.Guarded I allowed known := by
  intro t ht
  rcases List.mem_or_eq_of_mem_set ht with hold | rfl
  · exact h t hold
  · exact hnew

theorem moves_guarded {x y : Tasks σ A α} {input : TaskInput σ A α} (hm : x.Moves input y) (h : x.Guarded I allowed known)
    (hstart : ∀ program, input = .start program → program.Guarded I allowed known (fun _ => True)) :
    y.Guarded I allowed known := by
  rcases h with htold | ⟨hshared, htasks⟩
  · left
    obtain hlog | ⟨entry, hlog⟩ := moves_log hm
    · rwa [hlog]
    · rw [hlog]
      exact htold.append
  · have hguard {index : ℕ} {task : Task σ A α} {phase : Phase σ A α} (ht : x.tasks[index]? = some task)
        (hp : task.phase = phase) : phase.Guarded I allowed known := hp ▸ htasks task (List.mem_of_getElem? ht)
    cases hm with
    | same => exact Or.inr ⟨hshared, htasks⟩
    | start program =>
      refine Or.inr ⟨hshared, fun task ht => ?_⟩
      rcases List.mem_append.mp ht with hold | hnew
      · exact htasks task hold
      · rw [List.mem_singleton.mp hnew]
        exact hstart program rfl
    | done ht hp => exact Or.inr ⟨hshared, guarded_set htasks trivial⟩
    | access ht hp =>
      obtain ⟨hI, hnext⟩ := hguard ht hp x.shared hshared
      exact Or.inr ⟨hI, guarded_set htasks hnext⟩
    | ask ht hp => exact Or.inr ⟨hshared, guarded_set htasks (hguard ht hp).2⟩
    | @answer _ index task query next a ht hp =>
      by_cases hk : known query a
      · exact Or.inl ⟨index, ⟨query, a⟩, List.mem_append_right _ (List.mem_singleton_self _), hk⟩
      · exact Or.inr ⟨hshared, guarded_set htasks (hguard ht hp a hk)⟩

theorem moves_allowed {x y : Tasks σ A α} {input : TaskInput σ A α} (hm : x.Moves input y) (h : x.Guarded I allowed known) {query : κ}
    (hlog : y.log = x.log ++ [.dispatched index query]) : Told known x.log ∨ allowed query := by
  rcases h with htold | ⟨-, htasks⟩
  · exact Or.inl htold
  · right
    cases hm with
    | same | start | access => exact absurd (congrArg List.length hlog) (by simp [advance])
    | done | answer =>
      have hlast := List.append_cancel_left hlog
      cases hlast
    | @ask _ i task query' next ht hp =>
      have hlast := List.append_cancel_left hlog
      cases hlast
      have hphase := htasks task (List.mem_of_getElem? ht)
      rw [hp] at hphase
      exact hphase.1

theorem run_guarded {shared : σ} {inputs : List (TaskInput σ A α)} (hI : I shared)
    (hstart : ∀ program, .start program ∈ inputs → program.Guarded I allowed known (fun _ => True))
    {before after : List (Entry A α)} {query : κ}
    (hlog : (Runs.run step (fresh shared) inputs).log = before ++ .dispatched index query :: after) :
    Told known before ∨ allowed query := by
  obtain ⟨first, input, later, rfl, hb, he⟩ := run_log_split (Nat.zero_le _) hlog
  have hguarded : (Runs.run step (fresh shared) first).Guarded I allowed known := by
    exact Runs.run_invariant step (Q := fun _ input => ∀ program, input = .start program →
      program.Guarded I allowed known (fun _ => True)) (I := fun x : Tasks σ A α => x.Guarded I allowed known)
      (fun x input h hq => moves_guarded (step_moves x input) h hq)
      (Or.inr ⟨hI, fun task ht => absurd ht List.not_mem_nil⟩)
      (Runs.along_of_forall step (fun input hi program hp => hstart program (by simp [← hp, hi])) _)
  rw [Runs.run_append, Runs.run_cons, Runs.run_nil] at he
  rw [← hb] at he ⊢
  exact moves_allowed (step_moves _ input) hguarded he

end Tasks

end PredictFun.Base
