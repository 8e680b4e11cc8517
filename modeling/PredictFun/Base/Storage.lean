import Mathlib

namespace PredictFun.Base.Storage

/-- What the next operation on the file meets. A faulty write keeps only a first part of its bytes;
the caller then sees a failure, or the process is gone. -/
inductive Fault
  | none
  | fail (written : ℕ)
  | crash (written : ℕ)
  deriving DecidableEq

structure World (β : Type) where
  file : Option (List β)
  faults : List Fault

inductive Outcome (ε α : Type)
  | ok (value : α)
  | error (failure : ε)
  | crashed
  deriving DecidableEq

abbrev Disk (β ε α : Type) := World β → Outcome ε α × World β

variable {α β ε γ : Type}

def andThen (x : Disk β ε α) (f : α → Disk β ε γ) : Disk β ε γ := fun w =>
  match x w with
  | (.ok value, w) => f value w
  | (.error failure, w) => (.error failure, w)
  | (.crashed, w) => (.crashed, w)

instance : Monad (Disk β ε) where
  pure value := fun w => (.ok value, w)
  bind := andThen

def refuse (failure : ε) : Disk β ε α := fun w => (.error failure, w)

def ofResult : Except ε α → Disk β ε α
  | .ok value => pure value
  | .error failure => refuse failure

def contents : Disk β ε (Option (List β)) := fun w => (.ok w.file, w)

/-- Meet the next fault; `change n` is the file when a fault stops the operation after `n` bytes. -/
def operate (failure : ε) (done : Option (List β)) (change : ℕ → Option (List β)) : Disk β ε Unit := fun w =>
  match w.faults with
  | [] => (.ok (), ⟨done, []⟩)
  | .none :: rest => (.ok (), ⟨done, rest⟩)
  | .fail n :: rest => (.error failure, ⟨change n, rest⟩)
  | .crash n :: rest => (.crashed, ⟨change n, rest⟩)

/-- An operation that leaves the file as it is: directory creation, opening, flushing, closing, syncing. -/
def attempt (failure : ε) : Disk β ε Unit := fun w => operate failure w.file (fun _ => w.file) w

def create (failure : ε) : Disk β ε Unit := fun w => operate failure (some []) (fun _ => w.file) w

def write (failure : ε) (bytes : List β) : Disk β ε Unit := fun w =>
  operate failure (some (w.file.getD [] ++ bytes)) (fun n => some (w.file.getD [] ++ bytes.take n)) w

def resize (failure : ε) (size : ℕ) : Disk β ε Unit := fun w =>
  operate failure (w.file.map (List.take size)) (fun _ => w.file) w

@[simp] theorem pure_apply (value : α) (w : World β) : (pure value : Disk β ε α) w = (.ok value, w) := rfl

variable {x : Disk β ε α} {faults : List Fault} {o : Outcome ε α}

theorem bind_ok {f : α → Disk β ε γ} {w w' : World β} {value : α}
    (h : x w = (.ok value, w')) : (x >>= f) w = f value w' := by
  change andThen x f w = _
  rw [andThen, h]

theorem bind_error {f : α → Disk β ε γ} {w w' : World β} {failure : ε}
    (h : x w = (.error failure, w')) : (x >>= f) w = (.error failure, w') := by
  change andThen x f w = _
  rw [andThen, h]

theorem bind_crashed {f : α → Disk β ε γ} {w w' : World β}
    (h : x w = (.crashed, w')) : (x >>= f) w = (.crashed, w') := by
  change andThen x f w = _
  rw [andThen, h]

theorem bind_bind {δ : Type} (x : Disk β ε α) (f : α → Disk β ε γ) (g : γ → Disk β ε δ) :
    x >>= f >>= g = x >>= fun value => f value >>= g := by
  funext w
  rcases hx : x w with ⟨value | failure | _, w'⟩
  · rw [bind_ok hx]
    change andThen (x >>= f) g w = andThen (f value) g w'
    rw [andThen, bind_ok hx, andThen]
  · rw [bind_error hx, bind_error (bind_error hx)]
  · rw [bind_crashed hx, bind_crashed (bind_crashed hx)]

theorem bind_ok_inversion {f : α → Disk β ε γ} {w : World β} {value : γ}
    (h : ((x >>= f) w).1 = .ok value) : ∃ a w', x w = (.ok a, w') ∧ (f a w').1 = .ok value := by
  rcases hx : x w with ⟨a | failure | _, w'⟩
  · rw [bind_ok hx] at h
    exact ⟨a, w', rfl, h⟩
  · rw [bind_error hx] at h
    cases h
  · rw [bind_crashed hx] at h
    cases h

theorem operate_cases (failure : ε) (done : Option (List β)) (change : ℕ → Option (List β)) (w : World β) :
    operate failure done change w = (.ok (), ⟨done, w.faults.tail⟩) ∨
    (∃ n, operate failure done change w = (.error failure, ⟨change n, w.faults.tail⟩) ∧
      w.faults.head? = some (.fail n)) ∨
    (∃ n, operate failure done change w = (.crashed, ⟨change n, w.faults.tail⟩) ∧
      w.faults.head? = some (.crash n)) := by
  unfold operate
  match w.faults with
  | [] => exact Or.inl rfl
  | .none :: rest => exact Or.inl rfl
  | .fail n :: rest => exact Or.inr (Or.inl ⟨n, rfl, rfl⟩)
  | .crash n :: rest => exact Or.inr (Or.inr ⟨n, rfl, rfl⟩)

theorem attempt_cases (failure : ε) (w : World β) :
    attempt failure w = (.ok (), ⟨w.file, w.faults.tail⟩) ∨
    (∃ n, attempt failure w = (.error failure, ⟨w.file, w.faults.tail⟩) ∧ w.faults.head? = some (.fail n)) ∨
    (∃ n, attempt failure w = (.crashed, ⟨w.file, w.faults.tail⟩) ∧ w.faults.head? = some (.crash n)) :=
  operate_cases failure _ _ w

theorem create_cases (failure : ε) (w : World β) :
    create failure w = (.ok (), ⟨some [], w.faults.tail⟩) ∨
    (∃ n, create failure w = (.error failure, ⟨w.file, w.faults.tail⟩) ∧ w.faults.head? = some (.fail n)) ∨
    (∃ n, create failure w = (.crashed, ⟨w.file, w.faults.tail⟩) ∧ w.faults.head? = some (.crash n)) :=
  operate_cases failure _ _ w

theorem write_cases (failure : ε) (f bytes : List β) (faults : List Fault) :
    write failure bytes ⟨some f, faults⟩ = (.ok (), ⟨some (f ++ bytes), faults.tail⟩) ∨
    (∃ n, write failure bytes ⟨some f, faults⟩ = (.error failure, ⟨some (f ++ bytes.take n), faults.tail⟩) ∧
      faults.head? = some (.fail n)) ∨
    (∃ n, write failure bytes ⟨some f, faults⟩ = (.crashed, ⟨some (f ++ bytes.take n), faults.tail⟩) ∧
      faults.head? = some (.crash n)) :=
  operate_cases failure _ _ ⟨some f, faults⟩

theorem resize_cases (failure : ε) (size : ℕ) (w : World β) :
    resize failure size w = (.ok (), ⟨w.file.map (List.take size), w.faults.tail⟩) ∨
    (∃ n, resize failure size w = (.error failure, ⟨w.file, w.faults.tail⟩) ∧ w.faults.head? = some (.fail n)) ∨
    (∃ n, resize failure size w = (.crashed, ⟨w.file, w.faults.tail⟩) ∧ w.faults.head? = some (.crash n)) :=
  operate_cases failure _ _ w

@[simp] theorem attempt_nil (failure : ε) (file : Option (List β)) :
    attempt failure ⟨file, []⟩ = (.ok (), ⟨file, []⟩) := rfl

@[simp] theorem create_nil (failure : ε) (file : Option (List β)) :
    create failure ⟨file, []⟩ = (.ok (), ⟨some [], []⟩) := rfl

@[simp] theorem write_nil (failure : ε) (f bytes : List β) :
    write failure bytes ⟨some f, []⟩ = (.ok (), ⟨some (f ++ bytes), []⟩) := rfl

@[simp] theorem resize_nil (failure : ε) (f : List β) (size : ℕ) :
    resize failure size ⟨some f, []⟩ = (.ok (), ⟨some (f.take size), []⟩) := rfl

@[simp] theorem contents_apply (w : World β) : (contents : Disk β ε _) w = (.ok w.file, w) := rfl

@[simp] theorem refuse_apply (failure : ε) (w : World β) :
    (refuse failure : Disk β ε α) w = (.error failure, w) := rfl

def NoFail (faults : List Fault) : Prop := ∀ n, Fault.fail n ∉ faults

theorem NoFail.nil : NoFail [] := fun _ h => by cases h

theorem NoFail.suffix {xs ys : List Fault} (h : NoFail ys) (hs : xs <:+ ys) : NoFail xs :=
  fun n hn => h n (hs.subset hn)

def Quiet (x : Disk β ε α) : Prop :=
  ∀ w, (x w).2.file = w.file ∧ (x w).2.faults <:+ w.faults ∧ (∀ failure, (x w).1 = .error failure → ¬NoFail w.faults)

theorem Quiet.pure (value : α) : Quiet (Pure.pure value : Disk β ε α) :=
  fun _ => ⟨rfl, List.suffix_refl _, fun _ h => (by cases h)⟩

theorem Quiet.bind {f : α → Disk β ε γ} (hx : Quiet x) (hf : ∀ value, Quiet (f value)) :
    Quiet (x >>= f) := by
  intro w
  obtain ⟨hfile, hs, he⟩ := hx w
  rcases hr : x w with ⟨value | failure | _, w'⟩
  · rw [bind_ok hr]
    rw [hr] at hfile hs
    obtain ⟨hfile', hs', he'⟩ := hf value w'
    exact ⟨hfile'.trans hfile, hs'.trans hs, fun failure h hn => he' failure h (hn.suffix hs)⟩
  · rw [bind_error hr]
    rw [hr] at hfile hs he
    exact ⟨hfile, hs, fun _ _ => he failure rfl⟩
  · rw [bind_crashed hr]
    rw [hr] at hfile hs
    exact ⟨hfile, hs, fun _ h => (by cases h)⟩

theorem not_noFail {n : ℕ} (h : faults.head? = some (.fail n)) : ¬NoFail faults :=
  fun hn => hn n (List.mem_of_head? h)

theorem attempt_quiet (failure : ε) : Quiet (attempt failure : Disk β ε Unit) := by
  intro w
  obtain h | ⟨n, h, hn⟩ | ⟨n, h, -⟩ := attempt_cases failure w
  · rw [h]
    exact ⟨rfl, List.tail_suffix _, fun _ h => (by cases h)⟩
  · rw [h]
    exact ⟨rfl, List.tail_suffix _, fun _ _ => not_noFail hn⟩
  · rw [h]
    exact ⟨rfl, List.tail_suffix _, fun _ h => (by cases h)⟩

theorem Quiet.cases (hx : Quiet x) (w : World β) :
    (∃ value faults, x w = (.ok value, ⟨w.file, faults⟩) ∧ faults <:+ w.faults) ∨
    (∃ failure faults, x w = (.error failure, ⟨w.file, faults⟩) ∧ faults <:+ w.faults ∧ ¬NoFail w.faults) ∨
    (∃ faults, x w = (.crashed, ⟨w.file, faults⟩) ∧ faults <:+ w.faults) := by
  obtain ⟨hfile, hs, he⟩ := hx w
  rcases hr : x w with ⟨value | failure | _, file, faults⟩
  · rw [hr] at hfile hs
    cases hfile
    exact Or.inl ⟨value, faults, rfl, hs⟩
  · rw [hr] at hfile hs he
    cases hfile
    exact Or.inr (Or.inl ⟨failure, faults, rfl, hs, he failure rfl⟩)
  · rw [hr] at hfile hs
    cases hfile
    exact Or.inr (Or.inr ⟨faults, rfl, hs⟩)

/-- The file grows by a first part of `bytes`, all of it unless a fault stops the computation. -/
structure Appends (f bytes : List β) (faults : List Fault) (o : Outcome ε α) (w : World β) : Prop where
  faults_suffix : w.faults <:+ faults
  file : ∃ p, w.file = some (f ++ p) ∧ p <+: bytes ∧
    (p = bytes ∨ o = .crashed ∨ (¬NoFail faults ∧ ∃ failure, o = .error failure))

theorem Appends.file_eq {f bytes : List β} {value : α} {w : World β}
    (h : Appends f bytes faults (.ok value : Outcome ε α) w) : w = ⟨some (f ++ bytes), w.faults⟩ := by
  obtain ⟨p, hf, -, rfl | h | ⟨-, _, h⟩⟩ := h.file
  · cases w
    simp_all
  · cases h
  · cases h

theorem Appends.of_stopped {f bytes more : List β} {o' : Outcome ε γ}
    {w : World β} (h : Appends f bytes faults o w)
    (ho : (o = .crashed ∧ o' = .crashed) ∨ (¬NoFail faults ∧ ∃ failure, o' = .error failure)) :
    Appends f (bytes ++ more) faults o' w := by
  obtain ⟨p, hf, hp, -⟩ := h.file
  refine ⟨h.faults_suffix, p, hf, hp.trans (List.prefix_append _ _), Or.inr ?_⟩
  rcases ho with ⟨-, rfl⟩ | hn
  · exact Or.inl rfl
  · exact Or.inr hn

theorem Appends.weaken {f bytes : List β} {faults faults' : List Fault} {w : World β}
    (h : Appends f bytes faults' o w) (hs : faults' <:+ faults) : Appends f bytes faults o w := by
  obtain ⟨p, hf, hp, ho⟩ := h.file
  exact ⟨h.faults_suffix.trans hs, p, hf, hp, ho.imp_right (Or.imp_right (And.imp_left (fun hn hf => hn (hf.suffix hs))))⟩

theorem Appends.after {f bytes more : List β} {faults faults' : List Fault} {w : World β}
    (hs : faults' <:+ faults) (h : Appends (f ++ bytes) more faults' o w) : Appends f (bytes ++ more) faults o w := by
  obtain ⟨p, hf, hp, ho⟩ := h.file
  refine ⟨h.faults_suffix.trans hs, bytes ++ p, by rw [hf, List.append_assoc],
    (List.prefix_append_right_inj _).mpr hp, ?_⟩
  rcases ho with rfl | hc | ⟨hn, he⟩
  · exact Or.inl rfl
  · exact Or.inr (Or.inl hc)
  · exact Or.inr (Or.inr ⟨fun hf => hn (hf.suffix hs), he⟩)

theorem Quiet.bind_appends {g : α → Disk β ε γ} (hx : Quiet x) {f bytes : List β}
    (hg : ∀ value faults', Appends f bytes faults' (g value ⟨some f, faults'⟩).1 (g value ⟨some f, faults'⟩).2) :
    Appends f bytes faults ((x >>= g) ⟨some f, faults⟩).1 ((x >>= g) ⟨some f, faults⟩).2 := by
  obtain ⟨value, faults', hr, hs⟩ | ⟨failure, faults', hr, hs, hn⟩ | ⟨faults', hr, hs⟩ := hx.cases ⟨some f, faults⟩
  · rw [bind_ok hr]
    exact (hg value faults').weaken hs
  · rw [bind_error hr]
    exact ⟨hs, [], by simp, List.nil_prefix, Or.inr (Or.inr ⟨hn, failure, rfl⟩)⟩
  · rw [bind_crashed hr]
    exact ⟨hs, [], by simp, List.nil_prefix, Or.inr (Or.inl rfl)⟩

theorem Appends.bind_quiet {g : α → Disk β ε γ} {f bytes : List β}
    (hx : Appends f bytes faults (x ⟨some f, faults⟩).1 (x ⟨some f, faults⟩).2) (hg : ∀ value, Quiet (g value)) :
    Appends f bytes faults ((x >>= g) ⟨some f, faults⟩).1 ((x >>= g) ⟨some f, faults⟩).2 := by
  rcases hr : x ⟨some f, faults⟩ with ⟨value | failure | _, w⟩
  · rw [bind_ok hr]
    rw [hr] at hx
    obtain ⟨hfile, hs, -⟩ := hg value w
    refine ⟨hs.trans hx.faults_suffix, bytes, ?_, List.prefix_refl _, Or.inl rfl⟩
    rw [hfile]
    exact congrArg World.file hx.file_eq
  · rw [bind_error hr]
    rw [hr] at hx
    obtain ⟨p, hf, hp, ho⟩ := hx.file
    refine ⟨hx.faults_suffix, p, hf, hp, ?_⟩
    rcases ho with ho | ho | ⟨hn, -⟩
    · exact Or.inl ho
    · cases ho
    · exact Or.inr (Or.inr ⟨hn, failure, rfl⟩)
  · rw [bind_crashed hr]
    rw [hr] at hx
    obtain ⟨p, hf, hp, -⟩ := hx.file
    exact ⟨hx.faults_suffix, p, hf, hp, Or.inr (Or.inl rfl)⟩

theorem write_appends (failure : ε) (f bytes : List β) (faults : List Fault) :
    Appends f bytes faults (write failure bytes ⟨some f, faults⟩).1 (write failure bytes ⟨some f, faults⟩).2 ∧
      ∀ e, (write failure bytes ⟨some f, faults⟩).1 = .error e → ¬NoFail faults := by
  obtain h | ⟨n, h, hn⟩ | ⟨n, h, -⟩ := write_cases failure f bytes faults
  · rw [h]
    exact ⟨⟨List.tail_suffix _, bytes, rfl, List.prefix_refl _, Or.inl rfl⟩, fun e he => by cases he⟩
  · rw [h]
    exact ⟨⟨List.tail_suffix _, bytes.take n, rfl, List.take_prefix _ _, Or.inr (Or.inr ⟨not_noFail hn, failure, rfl⟩)⟩,
      fun _ _ => not_noFail hn⟩
  · rw [h]
    exact ⟨⟨List.tail_suffix _, bytes.take n, rfl, List.take_prefix _ _, Or.inr (Or.inl rfl)⟩, fun e he => by cases he⟩

def writeEach (render : α → Except ε (List β × List β)) (failure : ε) : List α → Disk β ε Unit
  | [] => pure ()
  | item :: rest => do
    let chunks ← ofResult (render item)
    write failure chunks.1
    write failure chunks.2
    writeEach render failure rest

def rendered (render : α → Except ε (List β × List β)) : List α → List β
  | [] => []
  | item :: rest =>
    match render item with
    | .ok chunks => chunks.1 ++ chunks.2 ++ rendered render rest
    | .error _ => []

theorem writeEach_appends (render : α → Except ε (List β × List β)) (failure : ε) (items : List α)
    (f : List β) (faults : List Fault) :
    Appends f (rendered render items) faults (writeEach render failure items ⟨some f, faults⟩).1
      (writeEach render failure items ⟨some f, faults⟩).2 := by
  induction items generalizing f faults with
  | nil => exact ⟨List.suffix_refl _, [], by simp [writeEach], List.prefix_refl _, Or.inl rfl⟩
  | cons item rest ih =>
    rw [writeEach, rendered]
    cases hr : render item with
    | error e => exact ⟨List.suffix_refl _, [], by simp [ofResult, bind_error (refuse_apply e _)],
        List.prefix_refl _, Or.inl rfl⟩
    | ok chunks =>
      rw [bind_ok (show ofResult (.ok chunks) ⟨some f, faults⟩ = (.ok chunks, ⟨some f, faults⟩) from rfl)]
      dsimp only
      rw [List.append_assoc]
      obtain ⟨h₁, he₁⟩ := write_appends failure f chunks.1 faults
      rcases hw₁ : write failure chunks.1 ⟨some f, faults⟩ with ⟨_ | e | _, w₁⟩
      · rw [bind_ok hw₁]
        rw [hw₁] at h₁
        have hf₁ : w₁ = ⟨some (f ++ chunks.1), w₁.faults⟩ := h₁.file_eq
        rw [hf₁]
        refine Appends.after h₁.faults_suffix ?_
        obtain ⟨h₂, he₂⟩ := write_appends failure (f ++ chunks.1) chunks.2 w₁.faults
        rcases hw₂ : write failure chunks.2 ⟨some (f ++ chunks.1), w₁.faults⟩ with ⟨_ | e | _, w₂⟩
        · rw [bind_ok hw₂]
          rw [hw₂] at h₂
          have hf₂ : w₂ = ⟨some (f ++ chunks.1 ++ chunks.2), w₂.faults⟩ := h₂.file_eq
          rw [hf₂]
          exact Appends.after h₂.faults_suffix (ih _ _)
        · rw [bind_error hw₂]
          rw [hw₂] at h₂ he₂
          exact h₂.of_stopped (Or.inr ⟨he₂ e rfl, e, rfl⟩)
        · rw [bind_crashed hw₂]
          rw [hw₂] at h₂
          exact h₂.of_stopped (Or.inl ⟨rfl, rfl⟩)
      · rw [bind_error hw₁]
        rw [hw₁] at h₁ he₁
        exact h₁.of_stopped (Or.inr ⟨he₁ e rfl, e, rfl⟩)
      · rw [bind_crashed hw₁]
        rw [hw₁] at h₁
        exact h₁.of_stopped (Or.inl ⟨rfl, rfl⟩)

theorem writeEach_ok (render : α → Except ε (List β × List β)) (failure : ε) (items : List α) (w : World β)
    (h : (writeEach render failure items w).1 = .ok ()) : ∀ item ∈ items, ∃ chunks, render item = .ok chunks := by
  induction items generalizing w with
  | nil => simp
  | cons item rest ih =>
    rw [writeEach] at h
    cases hr : render item with
    | error e =>
      rw [hr, bind_error (show ofResult (.error e : Except ε (List β × List β)) w = (.error e, w) from rfl)] at h
      cases h
    | ok chunks =>
      rw [hr, bind_ok (show ofResult (.ok chunks : Except ε (List β × List β)) w = (.ok chunks, w) from rfl)] at h
      have later : ∃ w', (writeEach render failure rest w').1 = .ok () := by
        rcases hw₁ : write failure chunks.1 w with ⟨_ | e | _, w₁⟩
        · rw [bind_ok hw₁] at h
          rcases hw₂ : write failure chunks.2 w₁ with ⟨_ | e | _, w₂⟩
          · rw [bind_ok hw₂] at h
            exact ⟨w₂, h⟩
          · rw [bind_error hw₂] at h
            cases h
          · rw [bind_crashed hw₂] at h
            cases h
        · rw [bind_error hw₁] at h
          cases h
        · rw [bind_crashed hw₁] at h
          cases h
      obtain ⟨w', hw'⟩ := later
      simp only [List.mem_cons, forall_eq_or_imp]
      exact ⟨⟨chunks, hr⟩, ih w' hw'⟩

def Steady (x : Disk β ε α) : Prop :=
  ∀ w, (x w).2.faults <:+ w.faults ∧ ∀ failure, (x w).1 = .error failure → ¬NoFail w.faults

theorem Quiet.steady (h : Quiet x) : Steady x := fun w => (h w).2

theorem Steady.bind {f : α → Disk β ε γ} (hx : Steady x) (hf : ∀ value, Steady (f value)) :
    Steady (x >>= f) := by
  intro w
  obtain ⟨hs, he⟩ := hx w
  rcases hr : x w with ⟨value | failure | _, w'⟩
  · rw [bind_ok hr]
    rw [hr] at hs
    obtain ⟨hs', he'⟩ := hf value w'
    exact ⟨hs'.trans hs, fun failure h hn => he' failure h (hn.suffix hs)⟩
  · rw [bind_error hr]
    rw [hr] at hs he
    exact ⟨hs, fun _ _ => he failure rfl⟩
  · rw [bind_crashed hr]
    rw [hr] at hs
    exact ⟨hs, fun _ h => (by cases h)⟩

theorem write_steady (failure : ε) (bytes : List β) : Steady (write failure bytes) := by
  intro w
  unfold write
  obtain h | ⟨n, h, hn⟩ | ⟨n, h, -⟩ := operate_cases failure (some (w.file.getD [] ++ bytes))
    (fun n => some (w.file.getD [] ++ bytes.take n)) w
  · rw [h]
    exact ⟨List.tail_suffix _, fun _ h => (by cases h)⟩
  · rw [h]
    exact ⟨List.tail_suffix _, fun _ _ => not_noFail hn⟩
  · rw [h]
    exact ⟨List.tail_suffix _, fun _ h => (by cases h)⟩

theorem writeEach_steady (render : α → Except ε (List β × List β)) (failure : ε) (items : List α)
    (h : ∀ item ∈ items, ∃ chunks, render item = .ok chunks) : Steady (writeEach render failure items) := by
  induction items with
  | nil => exact (Quiet.pure ()).steady
  | cons item rest ih =>
    obtain ⟨chunks, hr⟩ := h item List.mem_cons_self
    have hrest := ih (fun other ho => h other (List.mem_cons_of_mem _ ho))
    rw [writeEach, hr]
    exact (Quiet.pure chunks).steady.bind (fun chunks =>
      (write_steady failure chunks.1).bind (fun _ => (write_steady failure chunks.2).bind (fun _ => hrest)))

def verdict (render : α → Except ε (List β × List β)) : List α → Outcome ε Unit
  | [] => .ok ()
  | item :: rest =>
    match render item with
    | .ok _ => verdict render rest
    | .error failure => .error failure

theorem writeEach_nil (render : α → Except ε (List β × List β)) (failure : ε) (items : List α) (f : List β) :
    writeEach render failure items ⟨some f, []⟩ = (verdict render items, ⟨some (f ++ rendered render items), []⟩) := by
  induction items generalizing f with
  | nil => simp [writeEach, verdict, rendered]
  | cons item rest ih =>
    rw [writeEach, verdict, rendered]
    cases hr : render item with
    | error e => exact bind_error rfl |>.trans (by simp)
    | ok chunks =>
      rw [bind_ok (show ofResult (.ok chunks) (⟨some f, []⟩ : World β) = (.ok chunks, ⟨some f, []⟩) from rfl),
        bind_ok (write_nil failure f chunks.1), bind_ok (write_nil failure _ chunks.2), ih]
      simp

end PredictFun.Base.Storage
