import PredictFun.Net.Channel

namespace PredictFun.Net

open Base Codec

namespace Channel

def adds (limits : WebSocketLimits) : List Call → Bool
  | [] => false
  | c :: calls => fits limits c || (!closes c && adds limits calls)

/-- A write in progress for a queue that is not empty, and never a second one beside it. -/
def Drains (s : Channel) : Prop := (s.writes ≠ [] → s.streaming ≠ []) ∧ s.streaming.length ≤ 1

/-- When a write succeeds, its handler leaves the channel open, without a write of its own, or no other write is queued.
Where it does write to the open channel it also closes it. -/
def Keeps (limits : WebSocketLimits) (s : Channel) : Input → Prop
  | .writeCompleted none handlers =>
    if s.opened && adds limits (handlers.headD []) then (handlers.headD []).any closes = true
    else (s.opened && !(handlers.headD []).any closes) = true ∨ s.writes.tail = []
  | _ => True

structure Paused (s : Channel) : Prop where
  streaming : s.streaming = []
  active : s.writeActive = false

section

variable {s t : Channel} (limits : WebSocketLimits)

theorem startWrite_closed (ho : s.opened = false) : s.startWrite = s := by
  unfold startWrite
  split
  · rfl
  · rw [if_pos ho]

theorem startWrite_nil (hw : s.writes = []) : s.startWrite = s := by
  unfold startWrite
  rw [hw]

theorem startWrite_cons {front : PendingWrite} {rest : List PendingWrite} (ho : s.opened = true)
    (hw : s.writes = front :: rest) :
    s.startWrite = { s with writeActive := true, streaming := s.streaming ++ [front] } := by
  unfold startWrite
  rw [hw]
  simp [ho]

@[simp] theorem startWrite_writes : s.startWrite.writes = s.writes := by
  unfold startWrite
  split
  · rfl
  · split_ifs <;> rfl

@[simp] theorem startWrite_opened : s.startWrite.opened = s.opened := by
  unfold startWrite
  split
  · rfl
  · split_ifs <;> rfl

theorem call_opened (c : Call) : (s.call limits c).opened = (s.opened && !closes c) := by
  rcases call_cases limits s c with ⟨_, ho, _⟩ | ⟨hy, hn, text, hc⟩
  · exact ho
  · rw [hc, hn]
    split_ifs <;> simp [queued]

theorem handle_opened (calls : List Call) : (s.handle limits calls).opened = (s.opened && !calls.any closes) := by
  induction calls generalizing s with
  | nil => simp [handle]
  | cons c calls ih =>
    have h : (s.handle limits (c :: calls)).opened = ((s.call limits c).opened && !calls.any closes) := ih
    rw [h, call_opened, List.any_cons, Bool.not_or, Bool.and_assoc]

theorem Paused.steady (h : Paused s) (hw : s.writes = []) : Steady s := by
  constructor
  · rw [h.streaming, hw, List.take_nil]
  · simp [h.active, hw]

theorem Paused.startWrite (h : Paused s) (ho : s.opened = true) : Steady s.startWrite := by
  cases hw : s.writes with
  | nil =>
    rw [startWrite_nil hw]
    exact h.steady hw
  | cons front rest =>
    rw [startWrite_cons ho hw]
    constructor
    · simp [h.streaming, hw]
    · simp [hw]

theorem Steady.queued (h : Steady s) (hw : s.writes ≠ []) (text : Bytes) : Steady (s.queued text) := by
  constructor
  · have hlength : 1 ≤ s.writes.length := List.length_pos_iff.mpr hw
    simp only [Channel.queued, h.streaming, List.take_append_of_le_length hlength]
  · simp [Channel.queued, h.active.mpr hw]

theorem Steady.paused (h : Steady s) (hw : s.writes = []) : Paused s := by
  constructor
  · rw [h.streaming, hw, List.take_nil]
  · have hactive := h.active
    simpa [hw] using hactive

theorem Paused.queued (h : Paused s) (text : Bytes) : Paused (s.queued text) := ⟨h.streaming, h.active⟩

theorem Steady.same (h : Steady s) (hs : SameQueue s t) : Steady t := by
  constructor
  · rw [hs.streaming, hs.writes]
    exact h.streaming
  · rw [hs.active, hs.writes]
    exact h.active

theorem Steady.call (h : Steady s) (c : Call) : Steady (s.call limits c) := by
  rcases call_cases limits s c with ⟨_, _, hs⟩ | ⟨hy, _, text, hc⟩
  · exact h.same hs
  · rw [hc]
    split_ifs with ha
    · exact h.queued (h.active.mp ha) text
    · have hw : s.writes = [] := by
        by_contra hw
        exact ha (h.active.mpr hw)
      exact ((h.paused hw).queued text).startWrite (Bool.and_eq_true_iff.mp hy).1

theorem call_writes_ne_nil (c : Call) (hw : s.writes ≠ []) : (s.call limits c).writes ≠ [] := by
  rcases call_cases limits s c with ⟨_, _, hs⟩ | ⟨_, _, text, hc⟩
  · rwa [hs.writes]
  · rw [hc]
    split_ifs <;> simp [queued]

theorem Steady.handle (h : Steady s) (hw : s.writes ≠ []) (calls : List Call) :
    Steady (s.handle limits calls) ∧ (s.handle limits calls).writes ≠ [] := by
  induction calls generalizing s with
  | nil => exact ⟨h, hw⟩
  | cons c calls ih => exact ih (h.call limits c) (call_writes_ne_nil limits c hw)

theorem Paused.call (h : Paused s) {c : Call} (hc : (s.opened && fits limits c) = false) :
    Paused (s.call limits c) ∧ (s.call limits c).writes = s.writes := by
  rcases call_cases limits s c with ⟨_, _, hs⟩ | ⟨hy, _⟩
  · refine ⟨⟨?_, ?_⟩, hs.writes⟩
    · rw [hs.streaming]
      exact h.streaming
    · rw [hs.active]
      exact h.active
  · rw [hc] at hy
    cases hy

theorem Paused.call_adds (h : Paused s) {c : Call} (hc : (s.opened && fits limits c) = true) :
    Steady (s.call limits c) ∧ (s.call limits c).writes ≠ [] := by
  rcases call_cases limits s c with ⟨hn, _⟩ | ⟨hy, _, text, he⟩
  · rw [hc] at hn
    cases hn
  · rw [he, h.active, if_neg Bool.false_ne_true]
    constructor
    · exact (h.queued text).startWrite (Bool.and_eq_true_iff.mp hy).1
    · simp [Channel.queued]

theorem adds_cons (c : Call) (calls : List Call) : (s.opened && adds limits (c :: calls)) =
    ((s.opened && fits limits c) || ((s.call limits c).opened && adds limits calls)) := by
  rw [call_opened, adds, Bool.and_or_distrib_left, Bool.and_assoc]

theorem Paused.handle (h : Paused s) (calls : List Call) (hc : (s.opened && adds limits calls) = false) :
    Paused (s.handle limits calls) ∧ (s.handle limits calls).writes = s.writes := by
  induction calls generalizing s with
  | nil => exact ⟨h, rfl⟩
  | cons c calls ih =>
    rw [adds_cons, Bool.or_eq_false_iff] at hc
    obtain ⟨hp, hw⟩ := h.call limits hc.1
    obtain ⟨hend, hsame⟩ := ih hp hc.2
    exact ⟨hend, hsame.trans hw⟩

theorem Paused.handle_adds (h : Paused s) (calls : List Call) (hc : (s.opened && adds limits calls) = true) :
    Steady (s.handle limits calls) ∧ (s.handle limits calls).writes ≠ [] := by
  induction calls generalizing s with
  | nil => simp [adds] at hc
  | cons c calls ih =>
    by_cases hadds : (s.opened && fits limits c) = true
    · obtain ⟨hs, hw⟩ := h.call_adds limits hadds
      exact hs.handle limits hw calls
    · rw [adds_cons] at hc
      have hlater : ((s.call limits c).opened && adds limits calls) = true := by simpa [hadds] using hc
      exact ih (h.call limits (by simpa using hadds)).1 hlater

theorem Paused.failQueuedWrites (h : Paused s) (ho : s.opened = false) (error : Error) (rounds : ℕ)
    (handlers : List (List Call)) (hr : s.writes.length = rounds) :
    Steady (failQueuedWrites limits error rounds handlers s) := by
  induction rounds generalizing s handlers with
  | zero => exact h.steady (List.length_eq_zero_iff.mp hr)
  | succ rounds ih =>
    unfold Channel.failQueuedWrites
    split
    · next hw => exact h.steady hw
    · next front rest hw =>
      have hanswer : Paused (s.answer front rest (.error error)) := ⟨h.streaming, h.active⟩
      obtain ⟨hp, hsame⟩ := hanswer.handle limits (handlers.headD []) (by simp [answer, ho])
      apply ih hp
      · simp [handle_opened, answer, ho]
      · rw [hsame]
        simpa [answer, hw] using hr

end

section

variable {s : Channel} (limits : WebSocketLimits)

theorem Steady.drains (h : Steady s) : Drains s := by
  constructor
  · intro hw
    rw [h.streaming]
    simpa using hw
  · rw [h.streaming]
    exact List.length_take_le 1 s.writes

theorem Steady.startWrite_iff (h : Steady s) (hw : s.writes ≠ []) :
    (s.opened = false → Steady s.startWrite) ∧ (Drains s.startWrite → s.opened = false) := by
  constructor
  · intro ho
    rwa [startWrite_closed ho]
  · rintro ⟨_, hone⟩
    by_contra ho
    obtain ⟨front, rest, he⟩ := List.exists_cons_of_ne_nil hw
    rw [startWrite_cons (by simpa using ho) he, h.streaming, he] at hone
    simp at hone

theorem Paused.startWrite_iff (h : Paused s) :
    (s.opened = true ∨ s.writes = [] → Steady s.startWrite) ∧ (Drains s.startWrite → s.opened = true ∨ s.writes = []) := by
  constructor
  · rintro (ho | hw)
    · exact h.startWrite ho
    · rw [startWrite_nil hw]
      exact h.steady hw
  · rintro ⟨hprogress, _⟩
    by_contra hn
    obtain ⟨ho, hw⟩ : s.opened = false ∧ s.writes ≠ [] := by simpa using hn
    rw [startWrite_closed ho] at hprogress
    exact hprogress hw h.streaming

theorem completeWrite_cons {front : PendingWrite} {rest : List PendingWrite} (he : s.writes = front :: rest)
    (handlers : List (List Call)) : s.completeWrite limits none handlers =
      ((s.released.answer front rest (.ok ())).handle limits (handlers.headD [])).startWrite := by
  unfold completeWrite
  split
  · next hn => rw [he] at hn; cases hn
  · next hc => rw [he] at hc; cases hc; rfl

theorem Steady.released {front : PendingWrite} {rest : List PendingWrite} (h : Steady s) (he : s.writes = front :: rest)
    (result : Result Unit) : Paused (s.released.answer front rest result) := by
  constructor
  · simp [Channel.released, answer, h.streaming, he]
  · rfl

theorem Steady.completeWrite_none (h : Steady s) (hw : s.writes ≠ []) (handlers : List (List Call)) :
    (Keeps limits s (.writeCompleted none handlers) → Steady (s.completeWrite limits none handlers)) ∧
      (Drains (s.completeWrite limits none handlers) → Keeps limits s (.writeCompleted none handlers)) := by
  obtain ⟨front, rest, he⟩ := List.exists_cons_of_ne_nil hw
  have hp := h.released he (.ok ())
  have hopened := handle_opened (s := s.released.answer front rest (.ok ())) limits (handlers.headD [])
  rw [completeWrite_cons limits he]
  simp only [Keeps]
  by_cases hadds : (s.opened && adds limits (handlers.headD [])) = true
  · rw [if_pos hadds]
    obtain ⟨hs, hne⟩ := hp.handle_adds limits (handlers.headD []) hadds
    have ho : s.opened = true := (Bool.and_eq_true_iff.mp hadds).1
    have hclosed : ((s.released.answer front rest (.ok ())).handle limits (handlers.headD [])).opened = false ↔
        (handlers.headD []).any closes = true := by
      rw [hopened, show (s.released.answer front rest (.ok ())).opened = true from ho, Bool.true_and, Bool.not_eq_false']
    rw [← hclosed]
    exact hs.startWrite_iff hne
  · rw [if_neg hadds]
    obtain ⟨hq, hsame⟩ := hp.handle limits (handlers.headD []) (Bool.eq_false_iff.mpr hadds)
    have hrest : s.writes.tail = ((s.released.answer front rest (.ok ())).handle limits (handlers.headD [])).writes := by
      rw [hsame, he]
      rfl
    rw [hrest, show (s.opened && !(handlers.headD []).any closes) = _ from hopened.symm]
    exact hq.startWrite_iff

theorem Steady.completeWrite_some (h : Steady s) (hw : s.writes ≠ []) (failure : StreamFailure)
    (handlers : List (List Call)) : Steady (s.completeWrite limits (some failure) handlers) := by
  unfold completeWrite
  split
  · next he => exact absurd he hw
  · next front rest he =>
    have hp : Paused ({ s.released with opened := false }.answer front rest
        (.error (channelError .writeFailure (ascii "WebSocket write") failure))) := by
      obtain ⟨hstreaming, hactive⟩ := h.released he (.ok ())
      exact ⟨hstreaming, hactive⟩
    obtain ⟨hq, _⟩ := hp.handle limits (handlers.headD []) rfl
    apply hq.failQueuedWrites limits
    · rw [handle_opened]
      rfl
    · rfl

theorem Steady.step (h : Steady s) {input : Input} (hp : Possible s input) :
    (Keeps limits s input → Steady (s.step limits input)) ∧ (Drains (s.step limits input) → Keeps limits s input) := by
  cases input with
  | call c => exact ⟨fun _ => h.call limits c, fun _ => trivial⟩
  | readCompleted outcome =>
    refine ⟨fun _ => ?_, fun _ => trivial⟩
    cases outcome <;> exact ⟨h.streaming, h.active⟩
  | writeCompleted failure handlers =>
    have hw : s.writes ≠ [] := by
      intro hw
      exact hp (by rw [h.streaming, hw, List.take_nil])
    cases failure with
    | none => exact h.completeWrite_none limits hw handlers
    | some failure => exact ⟨fun _ => h.completeWrite_some limits hw failure handlers, fun _ => trivial⟩
  | closeCompleted => exact ⟨fun _ => ⟨h.streaming, h.active⟩, fun _ => trivial⟩

end

def Answered (s : Channel) : Prop := s.completed.map Prod.fst = List.range s.accepted

theorem Accounted.answered {s : Channel} (h : Accounted s) (hs : Drains s) (hidle : s.streaming = []) : Answered s := by
  have hw : s.writes = [] := by
    by_contra hw
    exact hs.1 hw hidle
  have hserials := h.serials
  rwa [hw, List.map_nil, List.append_nil] at hserials

theorem write_queue_drains_iff (limits : WebSocketLimits) (opened : Bool) (inputs : List Input)
    (hp : Runs.Along (step limits) Possible { opened := opened } inputs) :
    ((∀ before, before <+: inputs → Drains (Runs.run (step limits) { opened := opened } before)) ↔
      Runs.Along (step limits) (Keeps limits) { opened := opened } inputs) ∧
    (Runs.Along (step limits) (Keeps limits) { opened := opened } inputs →
      (Runs.run (step limits) { opened := opened } inputs).undefined = false ∧
      ((Runs.run (step limits) { opened := opened } inputs).streaming = [] →
        Answered (Runs.run (step limits) { opened := opened } inputs))) := by
  have hstart : Steady { opened := opened } ∧ Accounted { opened := opened } := ⟨⟨rfl, by simp⟩, rfl, rfl⟩
  constructor
  · apply Runs.good_iff (step limits) (I := Steady) (C := Drains) (fun s h => h.drains) _ _ hstart.1 hp
    · intro s input hs hpossible hkeeps
      exact (hs.step limits hpossible).1 hkeeps
    · intro s input hs hpossible hdrains
      exact (hs.step limits hpossible).2 hdrains
  · intro hkeeps
    obtain ⟨hsteady, haccounted⟩ := Runs.run_invariant (step limits) (I := fun s => Steady s ∧ Accounted s)
      (fun s input h hq => ⟨(h.1.step limits hq.1).1 hq.2, h.2.step limits h.1 input hq.1⟩) hstart
      (Runs.along_and (step limits) hp hkeeps)
    exact ⟨haccounted.defined, haccounted.answered hsteady.drains⟩

def lostAfterWrites : List Input :=
  [.call .read, .call (.write [1]), .call (.write [2]), .writeCompleted none [], .writeCompleted none [], .readCompleted .closed]

theorem write_queue_drains_lost :
    Answered (Runs.run (step {}) { opened := true } lostAfterWrites) ∧
      (Runs.run (step {}) { opened := true } lostAfterWrites).completed = [(0, .ok ()), (1, .ok ())] := by
  have hp : Runs.Along (step {}) Possible { opened := true } lostAfterWrites := by
    simp [lostAfterWrites, Runs.Along, Possible, step, call, read, write, queued, startWrite, completeWrite, released,
      answer, handle]
  have hk : Runs.Along (step {}) (Keeps {}) { opened := true } lostAfterWrites := by
    simp [lostAfterWrites, Runs.Along, Keeps, step, call, read, write, queued, startWrite, completeWrite, released, answer,
      handle, adds]
  exact ⟨((write_queue_drains_iff {} true lostAfterWrites hp).2 hk).2 rfl, rfl⟩

/-- The connection is lost while the first of two writes is in progress, and that write still succeeds. -/
def lostDuringWrite : List Input :=
  [.call .read, .call (.write [1]), .call (.write [2]), .readCompleted .closed, .writeCompleted none []]

def writesFromHandler : List Input :=
  [.call (.write [1]), .writeCompleted none [[.write [2]]], .writeCompleted none [], .writeCompleted none []]

/-- The second write is left in the queue of a channel that does nothing any more. A write of a handler is given to the
stream twice, and the second completion finds the queue empty. -/
theorem write_queue_abandons :
    (Runs.Along (step {}) Possible { opened := true } lostDuringWrite ∧
      (Runs.run (step {}) { opened := true } lostDuringWrite).writes = [⟨1, [2]⟩] ∧
      (Runs.run (step {}) { opened := true } lostDuringWrite).streaming = [] ∧
      (Runs.run (step {}) { opened := true } lostDuringWrite).readActive = false ∧
      (Runs.run (step {}) { opened := true } lostDuringWrite).closing = 0 ∧
      ¬Answered (Runs.run (step {}) { opened := true } lostDuringWrite)) ∧
    Runs.Along (step {}) Possible { opened := true } writesFromHandler ∧
      (Runs.run (step {}) { opened := true } writesFromHandler).undefined = true := by
  refine ⟨⟨?_, rfl, rfl, rfl, rfl, ?_⟩, ?_, rfl⟩
  · simp [lostDuringWrite, Runs.Along, Possible, step, call, read, write, queued, startWrite, completeRead, closedError]
  · unfold Answered
    decide
  · simp [writesFromHandler, Runs.Along, Possible, step, call, write, queued, startWrite, completeWrite, released, answer,
      handle]

end Channel

end PredictFun.Net
