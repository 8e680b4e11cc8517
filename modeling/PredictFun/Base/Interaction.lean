import PredictFun.Base.Runs

namespace PredictFun.Base

/-- A program that works on a shared state and asks its environment, which answers each query once. -/
inductive Program (σ : Type) {κ : Type} (A : κ → Type) (α : Type) : Type
  | done (value : α)
  -- one atomic step: the program goes on with the state from before it
  | access (update : σ → σ) (next : σ → Program σ A α)
  | ask (query : κ) (next : A query → Program σ A α)

namespace Program

variable {σ κ : Type} {A : κ → Type} {α β : Type}

def bind : Program σ A α → (α → Program σ A β) → Program σ A β
  | done value, k => k value
  | access update next, k => access update (fun s => (next s).bind k)
  | ask query next, k => ask query (fun a => (next a).bind k)

instance : Monad (Program σ A) where
  pure := done
  bind := bind

abbrev Event (A : κ → Type) := (query : κ) × A query

/-- The program can end with the value after these queries and answers, whatever others do to the state meanwhile. -/
def Yields : Program σ A α → List (Event A) → α → Prop
  | done value, events, result => events = [] ∧ result = value
  | access _ next, events, result => ∃ s, (next s).Yields events result
  | ask query next, events, result => ∃ a rest, events = ⟨query, a⟩ :: rest ∧ (next a).Yields rest result

inductive Path : Program σ A α → List (Event A) → Program σ A α → Prop
  | refl (p) : Path p [] p
  | access {update next p events} (s : σ) : Path (next s) events p → Path (.access update next) events p
  | ask {query next p events} (a : A query) : Path (next a) events p → Path (.ask query next) (⟨query, a⟩ :: events) p

@[simp] theorem yields_done {value result : α} {events : List (Event A)} :
    (done value : Program σ A α).Yields events result ↔ events = [] ∧ result = value := Iff.rfl

theorem yields_bind {p : Program σ A α} {k : α → Program σ A β} {events : List (Event A)} {result : β} :
    (p.bind k).Yields events result ↔
      ∃ first value rest, events = first ++ rest ∧ p.Yields first value ∧ (k value).Yields rest result := by
  induction p generalizing events with
  | done value =>
    constructor
    · intro h
      exact ⟨[], value, events, rfl, ⟨rfl, rfl⟩, h⟩
    · rintro ⟨first, value', rest, rfl, ⟨rfl, rfl⟩, h⟩
      exact h
  | access update next ih =>
    constructor
    · rintro ⟨s, h⟩
      obtain ⟨first, value, rest, he, hp, hk⟩ := (ih s).mp h
      exact ⟨first, value, rest, he, ⟨s, hp⟩, hk⟩
    · rintro ⟨first, value, rest, he, ⟨s, hp⟩, hk⟩
      exact ⟨s, (ih s).mpr ⟨first, value, rest, he, hp, hk⟩⟩
  | ask query next ih =>
    constructor
    · rintro ⟨a, tail, rfl, h⟩
      obtain ⟨first, value, rest, rfl, hp, hk⟩ := (ih a).mp h
      exact ⟨⟨query, a⟩ :: first, value, rest, rfl, ⟨a, first, rfl, hp⟩, hk⟩
    · rintro ⟨first, value, rest, rfl, ⟨a, tail, rfl, hp⟩, hk⟩
      exact ⟨a, tail ++ rest, rfl, (ih a).mpr ⟨tail, value, rest, rfl, hp, hk⟩⟩

theorem Path.append {p q r : Program σ A α} {first second : List (Event A)} (h : Path p first q) (hq : Path q second r) :
    Path p (first ++ second) r := by
  induction h with
  | refl p => exact hq
  | access s _ ih => exact .access s (ih hq)
  | ask a _ ih => exact .ask a (ih hq)

theorem Path.yields {p q : Program σ A α} {first second : List (Event A)} {result : α} (h : Path p first q)
    (hq : q.Yields second result) : p.Yields (first ++ second) result := by
  induction h with
  | refl p => exact hq
  | access s _ ih => exact ⟨s, ih hq⟩
  | ask a _ ih => exact ⟨a, _, rfl, ih hq⟩

structure Environment (σ : Type) {κ : Type} (A : κ → Type) where
  state : ℕ → σ
  answer : ℕ → (query : κ) → A query

def eval (env : Environment σ A) : ℕ → Program σ A α → List (Event A) × α
  | _, done value => ([], value)
  | n, access _ next => eval env (n + 1) (next (env.state n))
  | n, ask query next =>
    (⟨query, env.answer n query⟩ :: (eval env (n + 1) (next (env.answer n query))).1,
      (eval env (n + 1) (next (env.answer n query))).2)

theorem eval_yields (env : Environment σ A) (n : ℕ) (p : Program σ A α) : p.Yields (eval env n p).1 (eval env n p).2 := by
  induction p generalizing n with
  | done value => exact ⟨rfl, rfl⟩
  | access update next ih => exact ⟨env.state n, ih _ (n + 1)⟩
  | ask query next ih => exact ⟨env.answer n query, _, rfl, ih _ (n + 1)⟩

theorem eval_answer {env : Environment σ A} {n : ℕ} {p : Program σ A α} {event : Event A} (h : event ∈ (eval env n p).1) :
    ∃ k, event.2 = env.answer k event.1 := by
  induction p generalizing n with
  | done value => exact absurd h List.not_mem_nil
  | access update next ih => exact ih _ h
  | ask query next ih =>
    rcases List.mem_cons.mp h with rfl | h
    · exact ⟨n, rfl⟩
    · exact ih _ h

theorem exists_yields [Nonempty σ] [∀ query, Nonempty (A query)] (p : Program σ A α) :
    ∃ events result, p.Yields events result := by
  induction p with
  | done value => exact ⟨[], value, rfl, rfl⟩
  | access update next ih =>
    obtain ⟨s⟩ := ‹Nonempty σ›
    obtain ⟨events, result, h⟩ := ih s
    exact ⟨events, result, s, h⟩
  | ask query next ih =>
    obtain ⟨a⟩ := ‹∀ query, Nonempty (A query)› query
    obtain ⟨events, result, h⟩ := ih a
    exact ⟨_, result, a, events, rfl, h⟩

variable (I : σ → Prop) (allowed : κ → Prop) (known : (query : κ) → A query → Prop)

/-- As long as the state stays in `I` and no answer is a `known` one, the program keeps the state in `I`, asks only what is
`allowed`, and ends in `post`. -/
def Guarded : Program σ A α → (α → Prop) → Prop
  | done value, post => post value
  | access update next, post => ∀ s, I s → I (update s) ∧ (next s).Guarded post
  | ask query next, post => allowed query ∧ ∀ a, ¬known query a → (next a).Guarded post

variable {I allowed known}

theorem Guarded.bind {p : Program σ A α} {k : α → Program σ A β} {post : α → Prop} {post' : β → Prop}
    (h : p.Guarded I allowed known post) (hk : ∀ value, post value → (k value).Guarded I allowed known post') :
    (p.bind k).Guarded I allowed known post' := by
  induction p with
  | done value => exact hk value h
  | access update next ih => exact fun s hs => ⟨(h s hs).1, ih s (h s hs).2⟩
  | ask query next ih => exact ⟨h.1, fun a ha => ih a (h.2 a ha)⟩

theorem guarded_true (p : Program σ A α) : p.Guarded (fun _ => True) (fun _ => True) known (fun _ => True) := by
  induction p with
  | done => trivial
  | access update next ih => exact fun s _ => ⟨trivial, ih s⟩
  | ask query next ih => exact ⟨trivial, fun a _ => ih a⟩

theorem Guarded.yields {p : Program σ A α} {post : α → Prop} {events : List (Event A)} {result : α}
    (h : p.Guarded (fun _ => True) allowed known post) (hy : p.Yields events result)
    (hu : ∀ e ∈ events, ¬known e.1 e.2) : (∀ e ∈ events, allowed e.1) ∧ post result := by
  induction p generalizing events with
  | done value =>
    obtain ⟨rfl, rfl⟩ := hy
    exact ⟨fun e he => absurd he List.not_mem_nil, h⟩
  | access update next ih =>
    obtain ⟨s, hy⟩ := hy
    exact ih s (h s trivial).2 hy hu
  | ask query next ih =>
    obtain ⟨a, rest, rfl, hy⟩ := hy
    obtain ⟨hall, hpost⟩ := ih a (h.2 a (hu _ List.mem_cons_self)) hy (fun e he => hu e (List.mem_cons_of_mem _ he))
    refine ⟨fun e he => ?_, hpost⟩
    rcases List.mem_cons.mp he with rfl | he
    · exact h.1
    · exact hall e he

end Program

end PredictFun.Base
