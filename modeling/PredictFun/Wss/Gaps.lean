import PredictFun.Wss.PrivateSteps
import PredictFun.Wss.PublicSteps

namespace PredictFun.Wss

open Base Codec EventQueue

variable {δ : Type}

/-- What was popped is a first part of what was accepted, and what waits is the rest, both with an overflow marker in the
place of each block that was given up. -/
def GapsMarked (capacity : ℕ) (queue : EventQueue (StreamEvent δ)) : Prop :=
  queue.waiting.length ≤ capacity ∧ ∃ past later, queue.accepted = past ++ later ∧
    Replaced OverflowMarker past queue.popped ∧ Replaced OverflowMarker later queue.waiting

theorem gapsMarked_of_reaches {capacity : ℕ} {queue : EventQueue (StreamEvent δ)} (hc : 1 ≤ capacity)
    (h : Reaches OverflowMarker { capacity := capacity } queue) : GapsMarked capacity queue := by
  obtain ⟨rfl, hvisible⟩ := h.visible hc
  exact ⟨hvisible.room, hvisible.shown.split⟩

theorem gaps_marked (options : ClientOptions) (backoff : Net.ReconnectBackoff) (hc : 1 ≤ options.maxPendingEvents) :
    (∀ decode inputs, GapsMarked options.maxPendingEvents
      (Runs.run (Public.step options decode) (Public.initial options backoff) inputs).queue) ∧
    (∀ reader inputs, GapsMarked options.maxPendingEvents
      (Runs.run (Private.step options reader) (Private.initial options backoff) inputs).queue) ∧
    ∀ (δ : Type) (queue : EventQueue (StreamEvent δ)),
      Reaches OverflowMarker { capacity := options.maxPendingEvents } queue → GapsMarked options.maxPendingEvents queue := by
  refine ⟨?_, ?_, ?_⟩
  · intro decode inputs
    exact gapsMarked_of_reaches hc (Public.run_queue options decode (Public.initial options backoff) inputs)
  · intro reader inputs
    exact gapsMarked_of_reaches hc (Private.run_queue options reader (Private.initial options backoff) inputs)
  · intro δ queue h
    exact gapsMarked_of_reaches hc h

def lateConsumer : List (Private.Input × Env) :=
  [(.start, ({} : Env)), (.opened 1 none, ({} : Env)), (.pop, ({} : Env))]

theorem gaps_marked_late : GapsMarked 1 (Private.shortRun 1 lateConsumer).queue ∧
    (Private.shortRun 1 lateConsumer).queue.accepted = [.state .connecting (ascii "connecting") 1] ∧
    (Private.shortRun 1 lateConsumer).queue.popped = [.state .degraded (ascii "state queue overflow") 1] := by
  refine ⟨?_, rfl, rfl⟩
  exact (gaps_marked { maxPendingEvents := 1 } (.ofPolicy {} 1) (le_refl 1)).2.1 Private.shortReader lateConsumer

end PredictFun.Wss
